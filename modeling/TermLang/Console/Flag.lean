import TermLang.Text.Quoted

/-!
# Flags

Arguments that start with a hyphen are flags, up to the first argument that does not or up to
two hyphens alone. One or two hyphens mean the same. A flag is a switch, which may be given a
truth value behind an equals sign, or takes a text, behind an equals sign or as the next
argument.
-/

namespace TermLang.Console

/-- What a flag takes. -/
inductive Flag.Kind where
  /-- A truth value, true if none is given. -/
  | switch
  /-- A text. -/
  | text
  deriving DecidableEq, Inhabited, Repr

/-- A flag that a command understands. -/
structure Flag where
  /-- The name without hyphens. -/
  name : String
  /-- What the flag takes. -/
  kind : Flag.Kind
  /-- What the flag is for. -/
  usage : String
  deriving Inhabited, Repr

/-- What the arguments of a command say. -/
structure Arguments where
  /-- The flags with their values, the latest first. -/
  values : List (String × String)
  /-- The arguments behind the flags. -/
  rest : List String
  deriving Inhabited, Repr

namespace Arguments

/-- The value of a flag that was given last. -/
def value? (arguments : Arguments) (name : String) : Option String :=
  (arguments.values.find? (·.1 == name)).map (·.2)

/-- Whether a switch is on. -/
def isOn (arguments : Arguments) (name : String) : Bool :=
  arguments.value? name == some "true"

end Arguments

namespace Flag

/-- Why arguments are refused. -/
inductive Refusal where
  /-- Help was asked for. -/
  | help
  /-- An argument that is no flag though it starts like one. -/
  | malformed (argument : String)
  /-- A flag that the command does not understand. -/
  | undefined (name : String)
  /-- A switch with a value that is no truth value. -/
  | notTruth (name value : String)
  /-- A flag without the text it takes. -/
  | missing (name : String)
  deriving DecidableEq, Inhabited, Repr

/-- The first line of a refusal; none if help was asked for. -/
def Refusal.message : Refusal → String
  | .help => ""
  | .malformed argument => "bad flag syntax: " ++ argument ++ "\n"
  | .undefined name => "flag provided but not defined: -" ++ name ++ "\n"
  | .notTruth name value =>
    "invalid boolean value " ++ Text.quoted value ++ " for -" ++ name ++ ": parse error\n"
  | .missing name => "flag needs an argument: -" ++ name ++ "\n"

/-- What a flag is for, as help shows it. -/
def help (flag : Flag) : String :=
  "  -" ++ flag.name ++ (if flag.kind = .text then " string" else "") ++ "\n    \t" ++
    flag.usage ++ "\n"

/-- The whole text of a refusal: its reason and the flags of the command. -/
def refusalText (command : String) (flags : List Flag) (refusal : Refusal) : String :=
  refusal.message ++ "Usage of " ++ command ++ ":\n" ++ String.join (flags.map help)

/-- The truth value that a text spells. -/
def truth? (text : String) : Option Bool :=
  if ["1", "t", "T", "TRUE", "true", "True"].contains text then some true
  else if ["0", "f", "F", "FALSE", "false", "False"].contains text then some false
  else none

/-- Divides a flag's text at its first equals sign, which cannot come first. -/
def divide (text : List Char) : String × Option String :=
  match text with
  | [] => ("", none)
  | first :: rest =>
    let name := String.ofList (first :: rest.takeWhile (· != '='))
    match rest.dropWhile (· != '=') with
    | [] => (name, none)
    | _ :: value => (name, some (String.ofList value))

/-- What one argument is. -/
inductive Reading where
  /-- The end of the flags; whether the argument itself is used up. -/
  | ends (used : Bool)
  /-- A flag with the value behind its equals sign. -/
  | named (name : String) (value : Option String)
  /-- A malformed flag. -/
  | malformed
  deriving DecidableEq, Inhabited, Repr

/-- Reads one argument. -/
def reading (argument : String) : Reading :=
  match argument.toList with
  | '-' :: '-' :: [] => .ends true
  | '-' :: '-' :: text => named text
  | '-' :: [] => .ends false
  | '-' :: text => named text
  | _ => .ends false
where
  /-- A flag's text behind its hyphens. -/
  named (text : List Char) : Reading :=
    match text with
    | first :: _ =>
      if first = '-' || first = '=' then .malformed
      else
        let (name, value) := divide text
        .named name value
    | [] => .malformed

/-- Reads the arguments of a command. -/
def parse (flags : List Flag) : (values : List (String × String)) → List String →
    Except Refusal Arguments
  | values, [] => .ok ⟨values, []⟩
  | values, argument :: rest =>
    match reading argument with
    | .ends used => .ok ⟨values, if used then rest else argument :: rest⟩
    | .malformed => .error (.malformed argument)
    | .named name value =>
      match flags.find? (·.name == name) with
      | none => .error (if name = "help" || name = "h" then .help else .undefined name)
      | some flag =>
        match flag.kind, value with
        | .switch, none => parse flags ((name, "true") :: values) rest
        | .switch, some text =>
          match truth? text with
          | some on => parse flags ((name, if on then "true" else "false") :: values) rest
          | none => .error (.notTruth name text)
        | .text, some text => parse flags ((name, text) :: values) rest
        | .text, none =>
          match rest with
          | next :: others => parse flags ((name, next) :: values) others
          | [] => .error (.missing name)

end Flag

end TermLang.Console

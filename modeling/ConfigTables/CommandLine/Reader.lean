import ConfigTables.CommandLine.Help

/-!
    Reading a command line. Arguments are read from left to right; the first that asks for an
    explanation or for the version ends the reading, and so does the first that is wrong. -/

namespace ConfigTables.CommandLine

/-- Why a command line is not to be carried out: it is wrong, or it asks for a text instead. -/
inductive Stop where
  | misuse
  | answer (text : String)
  deriving DecidableEq

/-- What the options of a command are given, in order. -/
abbrev Given := List (OptionSpec × String)

/-- An argument by its form. -/
inductive Argument where
  | word
  | separator
  | long (name : String) (value : Option String)
  | short (letters : List Char)
  deriving DecidableEq

/-- The form of an argument. A single dash is a word. -/
def Argument.ofText (text : String) : Argument :=
  match text.toList with
  | ['-', '-'] => separator
  | '-' :: '-' :: rest =>
    let name := String.ofList (rest.takeWhile (· ≠ '='))
    match rest.dropWhile (· ≠ '=') with
    | [] => long name none
    | _ :: value => long name (some (String.ofList value))
  | '-' :: c :: rest => short (c :: rest)
  | _ => word

/-- An option with what stands in the same argument, as its value or as more letters. -/
inductive Found where
  | long (o : OptionSpec) (value : Option String)
  | short (o : OptionSpec) (letters : List Char)

/-- The option that an argument starts with. -/
def Argument.option? (options : List OptionSpec) : Argument → Option Found
  | long name value => (options.find? (·.long = name)).map (.long · value)
  | short (c :: letters) => (options.find? (·.short = some c)).map (.short · letters)
  | _ => none

/-- The options given so far and one more, which has to be allowed. -/
def Given.add (given : Given) (o : OptionSpec) (value : String) : Except Stop Given :=
  if (!o.repeatable && given.any (·.1 = o)) || (o.value = .path && value = "") then .error .misuse
  else .ok (given ++ [(o, value)])

/-- The letters of an argument after the one of an option, as the value of the option. -/
def attached? : List Char → Option String
  | [] => none
  | '=' :: value => some (String.ofList value)
  | value => some (String.ofList value)

/-- The options of a command from its arguments. The value of an option that stands alone is the next
argument, unless that has the form of an option. -/
def readOptions (c : CommandSpec) (given : Given) : List String → Except Stop Given
  | [] => .ok given
  | arg :: rest =>
    match Argument.ofText arg with
    | .separator => if rest = [] then .ok given else .error .misuse
    | a =>
      match a.option? c.options with
      | none => .error .misuse
      | some found =>
        let (o, value) := match found with
          | .long o value => (o, value)
          | .short o letters => (o, attached? letters)
        if o.value = .none then
          match found with
          | .long _ (some _) => .error .misuse
          | _ =>
            if o = help then .error (.answer c.helpText)
            else do readOptions c (← given.add o "") rest
        else
          match value with
          | some value => do readOptions c (← given.add o value) rest
          | none =>
            match rest with
            | [] => .error .misuse
            | value :: rest =>
              if Argument.ofText value = .word then do readOptions c (← given.add o value) rest
              else .error .misuse

/-- The answer to a request for an explanation. -/
def explain : List String → Stop
  | [] => .answer programHelp
  | [name] =>
    if name = helpCommand then .answer helpCommandHelp
    else
      match commands.find? (·.name = name) with
      | some c => .answer c.helpText
      | none => .misuse
  | _ => .misuse

/-- The command of a command line, with its options. -/
def read : List String → Except Stop (CommandSpec × Given)
  | [] => .error .misuse
  | arg :: rest =>
    match Argument.ofText arg with
    | .word =>
      if arg = helpCommand then .error (explain rest)
      else
        match commands.find? (·.name = arg) with
        | some c => (readOptions c [] rest).map (c, ·)
        | none => .error .misuse
    | a =>
      match a.option? [help, version] with
      | some (.long _ (some _)) | none => .error .misuse
      | some (.long o none) | some (.short o _) =>
        .error (.answer (if o = help then programHelp else versionText))

/-- The values of an option, in order. -/
def Given.all (given : Given) (long : String) : List String :=
  (given.filter (·.1.long = long)).map (·.2)

/-- The value of an option that can be given once. -/
def Given.one? (given : Given) (long : String) : Option String := (given.all long).head?

end ConfigTables.CommandLine

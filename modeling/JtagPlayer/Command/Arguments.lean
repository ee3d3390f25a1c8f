/-!
# Arguments

The words of a command line are settings of three kinds: switches, options with a value, and
operands. Each command has a `Grammar` that lists its switches and options with their names, and the
commands that may follow it. `Grammar.settings` sorts words into settings up to where they end, a
further command begins, help is asked for, or a word cannot be understood.

A long name follows two dashes, and its value an equals sign or the next word. Letters may follow
one dash together, the last of them with its value. After a word of two dashes all others are
operands.
-/

namespace JtagPlayer

/-- A switch or option, by its names. -/
structure SettingName where
  long : String
  letter : Option Char := none
  deriving DecidableEq, Inhabited

/-- What the words of a command may say. -/
structure Grammar where
  switches : List SettingName := []
  options : List SettingName := []
  commands : List String := []

/-- What one or two words say. -/
inductive Setting where
  | switch (name : String)
  | option (name : String) (value : String)
  | operand (text : String)
  deriving DecidableEq

/-- The name of a setting. Operands have none. -/
def Setting.name : Setting → String
  | switch name => name
  | option name _ => name
  | operand _ => ""

/-- Where the settings of a command end. -/
inductive SettingsEnd where
  /-- There are no more words. -/
  | complete
  /-- Another command begins. -/
  | command (name : String) (words : List String)
  /-- Help is asked for. -/
  | help
  /-- A word cannot be understood. -/
  | refused
  deriving DecidableEq

/-- The settings of a command and how they end. -/
structure Settings where
  settings : List Setting := []
  ending : SettingsEnd
  deriving DecidableEq

namespace Settings

/-- Adds a setting in front. -/
def cons (setting : Setting) (settings : Settings) : Settings :=
  { settings with settings := setting :: settings.settings }

end Settings

namespace Grammar

/-- The name of the switch that asks for help. -/
def helpName : SettingName where
  long := "help"
  letter := some 'h'

/-- What a group of letters says: its settings, and the option that still needs a value. -/
structure Letters where
  settings : List Setting
  pending : Option String := none
  ending : Option SettingsEnd := none

/-- Reads letters that follow one dash. -/
def letters (grammar : Grammar) : List Char → Letters
  | [] => { settings := [] }
  | letter :: rest =>
    if helpName.letter = some letter then { settings := [], ending := some .help }
    else
      match grammar.switches.find? (·.letter = some letter) with
      | some switch =>
        let more := grammar.letters rest
        { more with settings := .switch switch.long :: more.settings }
      | none =>
        match grammar.options.find? (·.letter = some letter) with
        | some option =>
          match rest with
          | [] => { settings := [], pending := some option.long }
          | '=' :: value => { settings := [.option option.long (String.ofList value)] }
          | value => { settings := [.option option.long (String.ofList value)] }
        | none => { settings := [], ending := some .refused }

/-- Reads a word that follows two dashes. -/
def long (grammar : Grammar) (word : List Char) : Letters :=
  let name := String.ofList (word.takeWhile (· != '='))
  let value := word.dropWhile (· != '=')
  if grammar.options.any (·.long = name) then
    match value with
    | [] => { settings := [], pending := some name }
    | _ :: value => { settings := [.option name (String.ofList value)] }
  else if !value.isEmpty then { settings := [], ending := some .refused }
  else if name = helpName.long then { settings := [], ending := some .help }
  else if grammar.switches.any (·.long = name) then { settings := [.switch name] }
  else { settings := [], ending := some .refused }

/-- Whether a word can be the value of an option before it. -/
def isValue (word : String) : Bool :=
  word == "-" || !word.startsWith "-"

/-- Where the settings end if help is asked for with a word of its own. It may be asked for with one
of the commands, of which help is one. -/
def helpEnd (grammar : Grammar) : List String → SettingsEnd
  | [] => .help
  | [command] =>
    if command = helpName.long || grammar.commands.contains command then .help else .refused
  | _ => .refused

/-- Sorts words into settings. -/
def settings (grammar : Grammar) : List String → Settings
  | [] => { ending := .complete }
  | word :: words =>
    if word = "--" then
      { settings := words.map .operand, ending := .complete }
    else if isValue word then
      if word = helpName.long ∧ !grammar.commands.isEmpty then
        { ending := grammar.helpEnd words }
      else if grammar.commands.contains word then { ending := .command word words }
      else (grammar.settings words).cons (.operand word)
    else
      let said :=
        match word.toList with
        | '-' :: '-' :: name => grammar.long name
        | _ :: names => grammar.letters names
        | [] => { settings := [] }
      match said.ending, said.pending with
      | some ending, _ => { settings := said.settings, ending }
      | none, none =>
        let more := grammar.settings words
        { more with settings := said.settings ++ more.settings }
      | none, some option =>
        -- The next word is the value, even if it is the name of a command.
        match words with
        | [] => { settings := said.settings, ending := .refused }
        | value :: words =>
          if isValue value then
            let more := grammar.settings words
            { more with settings := said.settings ++ .option option value :: more.settings }
          else { settings := said.settings, ending := .refused }

end Grammar

namespace Settings

/-- Whether no setting is given twice. -/
def areDistinct (settings : Settings) : Bool :=
  (settings.settings.map Setting.name).Nodup

/-- Whether a switch is on. -/
def switch (settings : Settings) (name : String) : Bool :=
  settings.settings.contains (.switch name)

/-- The value of an option. -/
def option? (settings : Settings) (name : String) : Option String :=
  settings.settings.findSome? fun
    | .option other value => if other = name then some value else none
    | _ => none

/-- The operand, if there is one. -/
def operand? (settings : Settings) : Option String :=
  settings.settings.findSome? fun
    | .operand text => some text
    | _ => none

end Settings

/-- The number of a decimal text up to a greatest one. Zeros and a plus sign may stand in front. -/
def boundedNumber? (greatest : Nat) (text : String) : Option Nat :=
  let digits := match text.toList with
    | '+' :: digits => digits
    | digits => digits
  if digits.isEmpty || !digits.all Char.isDigit then none
  else
    let number := digits.foldl (fun number digit => 10 * number + (digit.toNat - 48)) 0
    if number ≤ greatest then some number else none

end JtagPlayer

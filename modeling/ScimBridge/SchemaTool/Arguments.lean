import ScimBridge.Json.Fields
import ScimBridge.Text.Classes
import ScimBridge.Text.Split

/-!
# Arguments of a command

A word of a command line is an option, the value of one, or an argument. An option is given by its
name or by a beginning that no other option shares; its value is the next word or stands behind an
equals sign. Behind two hyphens alone there are no more options. A word with a hyphen in front is an
argument if it is a number or holds a blank.
-/

namespace ScimBridge

namespace SchemaTool

/-- An option with a value, which may have to be one of several words. -/
structure OptionRule where
  name : String
  choices : Option (List String) := none

/-- What a command takes: options, and perhaps one argument. -/
structure Grammar where
  options : List OptionRule
  takesArgument : Bool

/-- The options that ask for help. -/
def helpNames : List String := ["-h", "--help"]

/-- The names of all options. -/
def Grammar.names (g : Grammar) : List String := helpNames ++ g.options.map (·.name)

/-- What an option's own word gives beside its name: nothing, a text behind an equals sign, or a
text right behind the name. -/
inductive Given where
  | nothing
  | value (text : String)
  | tail (text : List Char)
  deriving DecidableEq, Repr

/-- What a word is. -/
inductive Mark where
  | argument
  | separator
  | option (name : String) (given : Given)
  | unknown
  deriving DecidableEq, Repr

/-- A name and what stands behind its equals sign. -/
def cutEquals (word : String) : String × Given :=
  match cutAt '=' word.toList with
  | [] | [_] => (word, .nothing)
  | name :: values => (String.ofList name, .value (String.ofList (joinWith '=' values)))

/-- The options that a word may stand for, as it is no full name. -/
def Grammar.matching (g : Grammar) (word : String) : List Mark :=
  if beginsWith "--" word then
    let (name, given) := cutEquals word
    (g.names.filter (beginsWith name)).map fun n => .option n given
  else
    g.names.filterMap fun n =>
      if n.toList = word.toList.take 2 then some (.option n (.tail (word.toList.drop 2)))
      else if beginsWith word n then some (.option n .nothing)
      else none

/-- Whether a word is a negative number, perhaps with a line end behind it. -/
def isNegativeNumber (word : String) : Bool :=
  match word.toList with
  | '-' :: digits =>
    let digits := if digits.getLast? = some '\n' then digits.dropLast else digits
    match cutAt '.' digits with
    | [whole] => !whole.isEmpty && whole.all isDecimal
    | [whole, fraction] => whole.all isDecimal && !fraction.isEmpty && fraction.all isDecimal
    | _ => false
  | _ => false

/-- What a word is; none if it may stand for several options. -/
def Grammar.mark? (g : Grammar) (word : String) : Option Mark :=
  if !beginsWith "-" word || word = "-" then some .argument
  else if g.names.contains word then some (.option word .nothing)
  else
    let (name, given) := cutEquals word
    if given ≠ .nothing ∧ g.names.contains name then some (.option name given)
    else match g.matching word with
      | [found] => some found
      | [] =>
        if isNegativeNumber word || word.toList.contains ' ' then some .argument
        else some .unknown
      | _ => none

/-- The words with what they are; behind the separator all are arguments. -/
def Grammar.marks? (g : Grammar) : List String → Option (List (Mark × String))
  | [] => some []
  | "--" :: rest => some ((.separator, "--") :: rest.map fun word => (.argument, word))
  | word :: rest => do return (← g.mark? word, word) :: (← g.marks? rest)

/-- Why a command is not carried out: help is asked for, or its words are no command. -/
inductive Stop where
  | help
  | invalid
  deriving DecidableEq, Repr

/-- What a short option for help stands for together with the text right behind it, which can only
ask for help again. -/
def helpTail : List Char → Stop
  | [] => .help
  | 'h' :: rest => helpTail rest
  | _ => .invalid

/-- What an option for help stands for. The short one takes a text behind an equals sign like one
right behind it, as long as there is any. -/
def helpStop (name : String) : Given → Stop
  | .nothing => .help
  | .value text => if beginsWith "--" name || text = "" then .invalid else helpTail text.toList
  | .tail text => helpTail text

/-- What was found: values of options, the argument, and whether words are left over. -/
structure Found where
  values : Fields String := []
  argument : Option String := none
  leftover : Bool := false

/-- Whether a value may be given to an option. -/
def Grammar.allows (g : Grammar) (name value : String) : Bool :=
  match (g.options.find? fun o => o.name == name).bind (·.choices) with
  | some choices => choices.contains value
  | none => true

/-- Give a value to an option. -/
def Grammar.store (g : Grammar) (found : Found) (name value : String) : Except Stop Found :=
  if g.allows name value then .ok { found with values := found.values.put name value }
  else .error .invalid

/-- Whether the argument is still missing. -/
def Grammar.wants (g : Grammar) (found : Found) : Bool := g.takesArgument && found.argument.isNone

/-- Go through marked words in order. -/
def Grammar.collect (g : Grammar) : List (Mark × String) → Found → Except Stop Found
  | [], found => .ok found
  | (.unknown, _) :: rest, found => g.collect rest { found with leftover := true }
  | (.option name given, _) :: rest, found =>
    if helpNames.contains name then .error (helpStop name given)
    else match given, rest with
      | .value text, rest => do g.collect rest (← g.store found name text)
      | .nothing, (.argument, text) :: rest => do g.collect rest (← g.store found name text)
      | _, _ => .error .invalid
  | (.separator, _) :: (.argument, word) :: rest, found =>
    if g.wants found then g.collect rest { found with argument := some word }
    else g.collect rest { found with leftover := true }
  | (.separator, _) :: rest, found => g.collect rest { found with leftover := true }
  | (.argument, word) :: (.separator, sep) :: rest, found =>
    if g.wants found then g.collect rest { found with argument := some word }
    else g.collect ((.separator, sep) :: rest) { found with leftover := true }
  | (.argument, word) :: rest, found =>
    if g.wants found then g.collect rest { found with argument := some word }
    else g.collect rest { found with leftover := true }

/-- What the words of a command say. -/
def Grammar.read (g : Grammar) (words : List String) : Except Stop Found :=
  match g.marks? words with
  | none => .error .invalid
  | some marks =>
    match g.collect marks {} with
    | .error stop => .error stop
    | .ok found => if g.wants found then .error .invalid else .ok found

/-- What stands in front of the name of a command: values of options and whether words are left
over; and the words from that name on, if there is one. -/
def Grammar.readFront (g : Grammar) : List (Mark × String) → Found →
    Except Stop (Found × List String)
  | [], found => .ok (found, [])
  | (.argument, word) :: rest, found => .ok (found, word :: rest.map Prod.snd)
  | (.separator, _) :: _ :: _, _ => .error .invalid
  | (.separator, _) :: [], found => .ok ({ found with leftover := true }, [])
  | (.unknown, _) :: rest, found => g.readFront rest { found with leftover := true }
  | (.option name given, _) :: rest, found =>
    if helpNames.contains name then .error (helpStop name given)
    else match given, rest with
      | .value text, rest => do g.readFront rest (← g.store found name text)
      | .nothing, (.argument, text) :: rest => do g.readFront rest (← g.store found name text)
      | _, _ => .error .invalid

end SchemaTool

end ScimBridge

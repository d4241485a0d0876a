import Maubot.Lib.Words

namespace Maubot.Command

/-!
# Commands — `handlers/command.py`

A `CommandHandler` is a function of a plugin with the arguments it takes and its subcommands.
It is called for every message, and calls the function, sends one reply, or does nothing.

* `Argument.match` — the three kinds of arguments;
* `CommandHandler.dispatch`, `handle` — `__call__`;
* `fullHelp`, `usage` — the replies;
* `new`, `subcommand` — the decorators.
-/

open Words

abbrev Text := List Char

/-- What the code takes from `str`: `lower`, and the whitespace of `strip` and of `\s`. -/
structure Strings where
  lower       : Text → Text
  space       : Char → Bool
  space_blank : space ' ' = true

/-- `msgtype` -/
inductive MessageType
  | text
  | notice
  | emote
  | other (name : String)
  deriving DecidableEq, Repr

structure Message where
  sender  : Text
  msgtype : MessageType
  body    : Text

variable (S : Strings) {F V : Type}

/-- `_split_in_two(val, " ")` -/
def splitInTwo (val : Text) : Text × Text :=
  (val.takeWhile (· != ' '), (val.dropWhile (· != ' ')).drop 1)

/-! ### Arguments -/

/-- What a parser may raise. -/
inductive ParseError
  | valueError
  | argumentSyntaxError (message : Text) (showUsage : Bool)
  deriving DecidableEq, Repr

/-- A match of a regular expression. -/
structure Match where
  start  : Nat
  stop   : Nat
  groups : List (Option Text)

/-- A value other than `None`: a text, the groups of a match, or what a parser made. -/
inductive Value (V : Type)
  | text (t : Text)
  | groups (g : List (Option Text))
  | parsed (v : V)
  deriving DecidableEq, Repr

/-- `SimpleArgument`, `RegexArgument` and `CustomArgument`.  A parser that takes the whole text
    also says what is left of it. -/
inductive Matcher (V : Type)
  | simple (passRaw : Bool)
  | regex (passRaw : Bool) (regex : Text → Option Match)
  | custom (matcher : Text → Except ParseError (Option V))
  | customRaw (matcher : Text → Except ParseError (Text × Option V))

structure Argument (V : Type) where
  name     : Text
  label    : Text
  required : Bool
  matcher  : Matcher V

/-- `arg.match(val)` -/
def Argument.match (arg : Argument V) (val : Text) : Except ParseError (Text × Option (Value V)) :=
  match arg.matcher with
  | .simple true         => .ok ([], some (.text val))
  | .simple false        =>
    let res := first S.space val
    .ok (val.drop res.length, some (.text res))
  | .regex passRaw regex =>
    let word := if passRaw then val else first S.space val
    match regex word with
    | some m =>
      let value := if m.groups = [] then .text ((word.take m.stop).drop m.start)
        else .groups m.groups
      .ok (val.take m.start ++ val.drop m.stop, some value)
    | none   => .ok (val, none)
  | .custom matcher      =>
    let word := first S.space val
    match matcher word with
    | .error e      => .error e
    | .ok (some v)  => .ok (val.drop word.length, some (.parsed v))
    | .ok none      => .ok (val, none)
  | .customRaw matcher   => (matcher val).map fun r => (r.1, r.2.map .parsed)

/-- `call_args` -/
abbrev CallArgs (V : Type) := List (Text × Option (Value V))

/-- `call_args[name] = value` -/
def CallArgs.set (name : Text) (value : Option (Value V)) : CallArgs V → CallArgs V
  | []           => [(name, value)]
  | (n, v) :: as => if n = name then (n, value) :: as else (n, v) :: CallArgs.set name value as

/-- `__parse_args__`: the arguments and the remaining text, or the reply. -/
def parseArgs (usage : Text) : List (Argument V) → CallArgs V → Text →
    Except Text (CallArgs V × Text)
  | [], callArgs, remaining          => .ok (callArgs, remaining)
  | arg :: args, callArgs, remaining =>
    match arg.match S (strip S.space remaining) with
    | .error .valueError                              => .error usage
    | .error (.argumentSyntaxError message showUsage) =>
      .error (message ++ if showUsage then '\n' :: usage else [])
    | .ok (remaining, value)                          =>
      if arg.required ∧ value.isNone then .error usage
      else parseArgs usage args (callArgs.set arg.name value) remaining

/-! ### Handlers -/

/-- Which words call a command besides its name, or instead of it. -/
inductive Aliases
  | none
  | names (names : List Text)
  | accepts (p : Text → Bool)

/-- A handler without its subcommands. -/
structure Node (F V : Type) where
  func              : F
  name              : Text
  help              : Option Text := none
  aliases           : Aliases := .none
  arguments         : List (Argument V) := []
  requireSubcommand : Bool := true
  argFallthrough    : Bool := true
  mustConsumeArgs   : Bool := true
  msgtypes          : List MessageType := [.text]

/-- A handler as it is bound to the instance of a plugin: `__get__` copies its fields and binds
    its subcommands.  The parent of a subcommand is the handler that has it in its list. -/
inductive CommandHandler (F V : Type)
  | mk (node : Node F V) (subcommands : List (CommandHandler F V))

namespace CommandHandler

def node : CommandHandler F V → Node F V
  | .mk node _ => node

def subcommands : CommandHandler F V → List (CommandHandler F V)
  | .mk _ subcommands => subcommands

/-- `is_command_match` -/
def isCommandMatch (h : CommandHandler F V) (val : Text) : Bool :=
  match h.node.aliases with
  | .none        => val = h.node.name
  | .names names => val = h.node.name ∨ val ∈ names
  | .accepts p   => p val

/-! ### Usage -/

/-- What `", ".join` does, for any separator. -/
def joinWith (sep : Text) (ts : List Text) : Text := sep.intercalate ts

def usageSubcommand : Text := "<subcommand> [...]".toList

def usageArgs (h : CommandHandler F V) : Text :=
  joinWith [' '] (h.node.arguments.map fun arg =>
    if arg.required then '<' :: arg.label ++ ['>'] else '[' :: arg.label ++ [']']) ++
  if h.subcommands ≠ [] ∧ h.node.argFallthrough then ' ' :: usageSubcommand else []

/-- `__mb_prefix__`, with the name of the parent -/
def mbPrefix (parent : Option Text) (h : CommandHandler F V) : Text :=
  match parent with
  | some parent => '!' :: parent ++ ' ' :: h.node.name
  | none        => '!' :: h.node.name

def helpText (h : CommandHandler F V) : Text := h.node.help.getD "None".toList

def usageInline (h : CommandHandler F V) : Text :=
  let line := "* ".toList ++ h.node.name ++ ' ' :: h.usageArgs ++ " - ".toList ++ h.helpText
  if h.node.argFallthrough then line
  else line ++ "\n* ".toList ++ h.node.name ++ ' ' :: usageSubcommand

def subcommandsList (h : CommandHandler F V) : Text :=
  "**Subcommands:** ".toList ++ joinWith ", ".toList (h.subcommands.map fun sc => sc.node.name)

def usageWithoutSubcommands (parent : Option Text) (h : CommandHandler F V) : Text :=
  let start := "**Usage:** ".toList ++ h.mbPrefix parent
  if h.node.argFallthrough then start ++ ' ' :: h.usageArgs
  else if h.node.arguments.isEmpty then start ++ " [subcommand] [...]".toList
  else start ++ ' ' :: h.usageArgs ++ " _OR_ ".toList ++ h.mbPrefix parent ++
    ' ' :: usageSubcommand

def usage (parent : Option Text) (h : CommandHandler F V) : Text :=
  if h.subcommands.isEmpty then h.usageWithoutSubcommands parent
  else h.usageWithoutSubcommands parent ++ "  \n".toList ++ h.subcommandsList

def fullHelp (parent : Option Text) (h : CommandHandler F V) : Text :=
  h.usageWithoutSubcommands parent ++ "\n\n".toList ++
  (if h.node.requireSubcommand then []
    else "* ".toList ++ h.mbPrefix parent ++ ' ' :: h.usageArgs ++ " - ".toList ++ h.helpText ++
      "\n".toList) ++
  joinWith "\n".toList (h.subcommands.map usageInline)

end CommandHandler

/-! ### Calls -/

/-- What one sees of the handling of a message. -/
inductive Effect (F V : Type)
  | reply (text : Text)
  | call (func : F) (args : CallArgs V)
  deriving DecidableEq, Repr

variable (bot : Text) (evt : Message)

/-- The first test of `__call__` -/
def Node.accepts (n : Node F V) : Bool := evt.sender ≠ bot ∧ evt.msgtype ∈ n.msgtypes

namespace CommandHandler

/-- The last lines of `__call__` -/
def finish (h : CommandHandler F V) (parent : Option Text) (callArgs : CallArgs V)
    (remaining : Text) : Effect F V :=
  if h.node.mustConsumeArgs ∧ strip S.space remaining ≠ [] then .reply (h.fullHelp parent)
  else .call h.node.func callArgs

mutual

/-- `__call__`, from where `remaining_val` is there. -/
def dispatch : CommandHandler F V → Option Text → CallArgs V → Text → List (Effect F V)
  | .mk node subcommands, parent, existingArgs, remaining =>
    let h := mk node subcommands
    let called := if node.argFallthrough then none
      else callSubcommand subcommands node.name existingArgs
        (splitInTwo (strip S.space remaining))
    match called with
    | some res => res
    | none     =>
      match parseArgs S (h.usage parent) node.arguments existingArgs remaining with
      | .error text               => [.reply text]
      | .ok (callArgs, remaining) =>
        if node.argFallthrough ∧ ¬ subcommands.isEmpty then
          match callSubcommand subcommands node.name callArgs
            (splitInTwo (strip S.space remaining)) with
          | some res => res
          | none     =>
            if node.requireSubcommand then [.reply (h.fullHelp parent)]
            else [h.finish S parent callArgs remaining]
        else [h.finish S parent callArgs remaining]
termination_by structural h => h

/-- The loop of `__call_subcommand__`: the first subcommand that the word calls. -/
def callSubcommand : List (CommandHandler F V) → Text → CallArgs V → Text × Text →
    Option (List (Effect F V))
  | [], _, _, _                        => none
  | h :: hs, parent, callArgs, command =>
    if h.isCommandMatch command.1 then
      some (if h.node.accepts bot evt then dispatch h (some parent) callArgs command.2 else [])
    else callSubcommand hs parent callArgs command
termination_by structural hs => hs

end

/-- `__call__` of a message -/
def handle (h : CommandHandler F V) : List (Effect F V) :=
  if h.node.accepts bot evt then
    match evt.body with
    | '!' :: body =>
      let command := splitInTwo body
      if h.isCommandMatch (S.lower command.1) then h.dispatch S bot evt none [] command.2 else []
    | _           => []
  else []

end CommandHandler

/-! ### Decorators -/

/-- `CommandHandler(func)` -/
def ofFunc (func : F) (name : Text) : CommandHandler F V := .mk { func, name } []

/-- `@argument(…)` -/
def Argument.decorate (arg : Argument V) : CommandHandler F V → CommandHandler F V
  | .mk node subcommands =>
    .mk { node with arguments := node.arguments ++ [arg] } subcommands

/-- `@new(…)` -/
def new (name : Text) (help : Option Text) (aliases : Aliases) (msgtypes : List MessageType)
    (requireSubcommand argFallthrough mustConsumeArgs : Bool) :
    CommandHandler F V → CommandHandler F V
  | .mk node subcommands =>
    .mk
      { node with
        name, help, aliases, requireSubcommand, argFallthrough, mustConsumeArgs
        -- decorators are executed last to first
        arguments := node.arguments.reverse
        msgtypes := if msgtypes.isEmpty then node.msgtypes else msgtypes }
      subcommands

/-- `@parent.subcommand(…)` -/
def subcommand (name : Text) (help : Option Text) (aliases : Aliases)
    (requiredSubcommand argFallthrough : Bool) (func : CommandHandler F V) :
    CommandHandler F V → CommandHandler F V
  | .mk node subcommands =>
    .mk node (subcommands ++
      [new name help aliases [] requiredSubcommand argFallthrough true func])

end Maubot.Command

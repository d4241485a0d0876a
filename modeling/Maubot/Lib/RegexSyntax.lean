import Maubot.Lib.Regex

namespace Maubot.Re

/-!
# The sources of regular expressions — the syntax of Python's `re`

A source is read one character at a time. What is read stands in the innermost open group, and a
character may be pending with those before it: in an escape, a set, the bounds of a repetition or
the head of a group.

* `State.act` — what a character does to the open groups;
* `read` — what it does, from what is pending;
* `compile` — the expression of a whole source;
* `compile_anchored` — `^` in front of a source and `$` behind it anchor its first and its last
  alternative; a source that begins with global flags is then refused.
-/

/-- The classes of characters, those that differ from a character in case only, and the
    characters of `\N{…}`. -/
structure Alphabet where
  digit : Char → Bool
  space : Char → Bool
  word  : Char → Bool
  cases : Char → List Char
  named : Text → Option Char

structure Flags where
  ignoreCase : Bool := false
  multiline  : Bool := false
  dotAll     : Bool := false
  ascii      : Bool := false
  verbose    : Bool := false
  deriving DecidableEq, Repr

/-! ### Open groups -/

/-- What a source is a sequence of.  A repetition stands behind an atom only. -/
inductive Item
  | atom (r : Regex)
  | anchor (r : Regex)
  | rep (r : Regex) (min : Nat) (max : Option Nat) (how : Repetition)

def Item.regex : Item → Regex
  | .atom r            => r
  | .anchor r          => r
  | .rep r min max how => .rep r min max how

/-- One item behind the other. -/
def sequence (items : List Item) : Regex := items.foldr (fun i r => .cat i.regex r) .empty

/-- The alternatives read so far, and the items of the one that is read, the latest first. -/
structure Alts where
  front : List (List Item) := []
  items : List Item := []

namespace Alts

def push (i : Item) (a : Alts) : Alts := { a with items := i :: a.items }

def bar (a : Alts) : Alts := { front := a.front ++ [a.items.reverse] }

/-- Repeats the latest item. -/
def rep (min : Nat) (max : Option Nat) (a : Alts) : Option Alts :=
  match a.items with
  | .atom r :: items => some { a with items := .rep r min max .greedy :: items }
  | _                => none

/-- Changes the repetition that has just been read. -/
def how (h : Repetition) (a : Alts) : Option Alts :=
  match a.items with
  | .rep r min max _ :: items => some { a with items := .rep r min max h :: items }
  | _                         => none

def regex (a : Alts) : Regex :=
  a.front.foldr (fun b r => .alt (sequence b) r) (sequence a.items.reverse)

def pattern (a : Alts) : Pattern where
  front := a.front.map fun b => b.map Item.regex
  last  := a.items.reverse.map Item.regex

end Alts

inductive Kind
  | plain
  | capture (n : Nat)
  | look (ahead negative : Bool)
  | atomic
  | cond (n : Nat)
  deriving DecidableEq, Repr

/-- An open group. -/
structure Opened where
  kind  : Kind
  flags : Flags
  alts  : Alts

/-- The groups of a source: their number, the names, the widths of the closed ones, and those
    that conditions ask for. -/
structure Groups where
  count  : Nat := 0
  names  : List (Text × Nat) := []
  closed : List (Nat × Option Nat) := []
  asked  : List Nat := []
  deriving DecidableEq, Repr

/-- What is pending. -/
inductive Mode
  | plain
  | repeated
  | comment (escaped : Bool)
  | escape (text : Text)
  | digits (text : Text)
  | brace (text : Text)
  | set (text : Text) (escaped : Bool)
  | head (text : Text)
  deriving DecidableEq, Repr

structure State where
  bottom  : Alts := {}
  opens   : List Opened := []
  global? : Option Flags := none
  groups  : Groups := {}
  mode    : Mode := .plain

inductive Action
  | item (i : Item)
  | rep (min : Nat) (max : Option Nat)
  | how (h : Repetition)
  | bar
  | capture (name : Option Text)
  | opens (kind : Kind) (flags : Flags)
  | close
  | flags (f : Flags)

/-- The item that a closed group is.  What a lookbehind looks for has one width, and a condition
    has two alternatives at most. -/
def Opened.close (o : Opened) (g : Groups) : Option (Item × Groups) :=
  let r := o.alts.regex
  match o.kind with
  | .plain               => some (.atom r, g)
  | .capture n           => some (.atom (.group n r), { g with closed := (n, r.width) :: g.closed })
  | .look true negative  => some (.atom (.ahead negative r), g)
  | .look false negative => r.width.map fun n => (.atom (.behind negative n r), g)
  | .atomic              => some (.atom (.atomic r), g)
  | .cond n              =>
    match o.alts.front with
    | []    => some (.atom (.cond n r .empty), g)
    | [yes] => some (.atom (.cond n (sequence yes) (sequence o.alts.items.reverse)), g)
    | _     => none

namespace State

/-- The flags at the place that is read. -/
def flags (s : State) : Flags :=
  match s.opens with
  | []     => s.global?.getD {}
  | o :: _ => o.flags

/-- Changes the alternatives of the innermost open group. -/
def update (s : State) (change : Alts → Option Alts) : Option State :=
  match s.opens with
  | []      => (change s.bottom).map fun a => { s with bottom := a }
  | o :: os => (change o.alts).map fun a => { s with opens := { o with alts := a } :: os }

/-- Global flags stand in front of everything else. -/
def act (s : State) : Action → Option State
  | .item i           => s.update fun a => some (a.push i)
  | .rep min max      => s.update (Alts.rep min max)
  | .how h            => s.update (Alts.how h)
  | .bar              => s.update fun a => some a.bar
  | .capture name     =>
    let n := s.groups.count + 1
    let names := match name with
      | some t => (t, n) :: s.groups.names
      | none   => s.groups.names
    if (names.map (·.1)).Nodup then
      some { s with
        opens  := { kind := .capture n, flags := s.flags, alts := {} } :: s.opens
        groups := { s.groups with count := n, names := names } }
    else none
  | .opens kind flags =>
    let asked := match kind with
      | .cond n => n :: s.groups.asked
      | _       => s.groups.asked
    some { s with
      opens  := { kind := kind, flags := flags, alts := {} } :: s.opens
      groups := { s.groups with asked := asked } }
  | .close            =>
    match s.opens with
    | []      => none
    | o :: os =>
      (o.close s.groups).bind fun (i, groups) =>
        { s with opens := os, groups := groups }.update fun a => some (a.push i)
  | .flags f          =>
    match s.opens, s.bottom.front, s.bottom.items with
    | [], [], [] => some { s with global? := some f }
    | _, _, _    => none

end State

/-! ### Characters -/

namespace Alphabet

variable (A : Alphabet) (f : Flags)

/-- A class of characters, in any case where case is ignored. -/
def oneOf (has : Char → Bool) : Regex :=
  .char fun c => has c || (f.ignoreCase && (A.cases c).any has)

def literal (c : Char) : Regex := A.oneOf f (· == c)

/-- `.` -/
def any : Regex := .char fun c => f.dotAll || c != '\n'

/-- `^` -/
def lineStart : Regex :=
  if f.multiline then .anchor fun w i => i == 0 || w[i - 1]? == some '\n' else caret

/-- `$` -/
def lineEnd : Regex :=
  if f.multiline then .anchor fun w i => i == w.length || w[i]? == some '\n' else dollar

/-- A class of characters, of the first 128 where the flags say so. -/
def has (p : Char → Bool) (c : Char) : Bool := p c && (!f.ascii || c.toNat < 128)

/-- `\d`, `\s`, `\w` and their complements. -/
def category : Char → Option (Char → Bool)
  | 'd' => some (has f A.digit)
  | 'D' => some fun c => !has f A.digit c
  | 's' => some (has f A.space)
  | 'S' => some fun c => !has f A.space c
  | 'w' => some (has f A.word)
  | 'W' => some fun c => !has f A.word c
  | _   => none

/-- `\b`: a word on one side of a place only. -/
def boundary (w : Text) (i : Nat) : Bool :=
  (i != 0 && (w[i - 1]?).any (has f A.word)) != (w[i]?).any (has f A.word)

/-- `\B`: no boundary, in a text that is not empty. -/
def noBoundary (w : Text) (i : Nat) : Bool := !w.isEmpty && !A.boundary f w i

/-- The same character, up to case where case is ignored. -/
def same (c d : Char) : Bool := c == d || (f.ignoreCase && (A.cases d).any (· == c))

end Alphabet

/-! ### Escapes and sets -/

/-- What is known of a text that may go on. -/
inductive Scan (α : Type)
  | more
  | done (a : α)
  | bad

def hexDigit (c : Char) : Option Nat :=
  if c.isDigit then some (c.toNat - '0'.toNat)
  else if 'a' ≤ c ∧ c ≤ 'f' then some (c.toNat - 'a'.toNat + 10)
  else if 'A' ≤ c ∧ c ≤ 'F' then some (c.toNat - 'A'.toNat + 10)
  else none

/-- The number that digits of a base stand for. -/
def number (base : Nat) (digits : List Nat) : Nat := digits.foldl (fun n d => n * base + d) 0

def octal (c : Char) : Bool := '0' ≤ c && c ≤ '7'

/-- The character of at most three octal digits. -/
def octalChar (text : Text) : Option Char :=
  let n := number 8 (text.map fun c => c.toNat - '0'.toNat)
  if n ≤ 255 then some (Char.ofNat n) else none

/-- `\x`, `\u` and `\U`, with so many digits. -/
def hexChar (n : Nat) (text : Text) : Scan Char :=
  match text.mapM hexDigit with
  | none        => .bad
  | some digits =>
    if digits.length < n then .more
    else if number 16 digits < 0x110000 then .done (Char.ofNat (number 16 digits))
    else .bad

/-- A text up to a character. -/
def upTil {α : Type} (c : Char) (text : Text) (k : Text → Scan α) : Scan α :=
  if text.getLast? = some c then k text.dropLast else .more

namespace Alphabet

variable (A : Alphabet) (f : Flags)

/-- An escape of one character, without its backslash. -/
def charEscape : Text → Scan Char
  | ['a']             => .done '\x07'
  | ['f']             => .done '\x0c'
  | ['n']             => .done '\n'
  | ['r']             => .done '\r'
  | ['t']             => .done '\t'
  | ['v']             => .done '\x0b'
  | 'x' :: text       => hexChar 2 text
  | 'u' :: text       => hexChar 4 text
  | 'U' :: text       => hexChar 8 text
  | ['N']             => .more
  | 'N' :: '{' :: text =>
    upTil '}' text fun name =>
      match A.named name with
      | some c => .done c
      | none   => .bad
  | [c]               => if c.isAlphanum then .bad else .done c
  | _                 => .bad

/-- An escape outside of sets, but for those that begin with a digit. -/
def escape : Text → Scan Item
  | ['A'] => .done (.anchor (.anchor fun _ i => i == 0))
  | ['Z'] => .done (.anchor (.anchor fun w i => i == w.length))
  | ['b'] => .done (.anchor (.anchor (A.boundary f)))
  | ['B'] => .done (.anchor (.anchor (A.noBoundary f)))
  | text  =>
    match text with
    | [c] =>
      match A.category f c with
      | some p => .done (.atom (A.oneOf f p))
      | none   => char text
    | _   => char text
where
  char (text : Text) : Scan Item :=
    match A.charEscape text with
    | .more   => .more
    | .done c => .done (.atom (A.literal f c))
    | .bad    => .bad

/-- Digits behind a backslash: a character, or a group that is closed. -/
def reference (g : Groups) (text : Text) : Option Item :=
  if text.head? = some '0' ∨ text.length = 3 then
    (octalChar text).map fun c => .atom (A.literal f c)
  else
    let n := number 10 (text.map fun c => c.toNat - '0'.toNat)
    (g.closed.lookup n).map fun width => .atom (.backref n (A.same f) width)

/-- A part of a set. -/
inductive Member
  | one (c : Char)
  | class (p : Char → Bool)

def Member.has : Member → Char → Bool
  | .one c   => (· == c)
  | .class p => p

/-- An escape in a set. -/
def setEscape : Text → Scan Member
  | ['b'] => .done (.one '\x08')
  | text  =>
    match text with
    | [c] =>
      match A.category f c with
      | some p => .done (.class p)
      | none   => char text
    | _   => char text
where
  char (text : Text) : Scan Member :=
    match A.charEscape text with
    | .more   => .more
    | .done c => .done (.one c)
    | .bad    => .bad

/-- The escape at the beginning of a text, and the rest. -/
def escaped (seen : Text) : Text → Option (Member × Text)
  | []     => none
  | c :: t =>
    match A.setEscape f (seen ++ [c]) with
    | .more   => escaped (seen ++ [c]) t
    | .done m => some (m, t)
    | .bad    => none

/-- The part at the beginning of a set, and the rest. -/
def member : Text → Option (Member × Text)
  | []            => none
  | '\\' :: text =>
    match text.takeWhile octal with
    | []     => A.escaped f [] text
    | digits => (octalChar (digits.take 3)).map fun c => (.one c, text.drop (digits.take 3).length)
  | c :: text     => some (.one c, text)

/-- The parts of a set: characters, classes and ranges. -/
def members : Nat → Text → Option (List (Char → Bool))
  | _, []       => some []
  | 0, _        => none
  | n + 1, text =>
    match A.member f text with
    | none           => none
    | some (m, rest) =>
      match rest with
      | '-' :: c :: rest' =>
        match m, A.member f (c :: rest') with
        | .one lo, some (.one hi, rest) =>
          if lo ≤ hi then (members n rest).map ((fun c => lo ≤ c && c ≤ hi) :: ·) else none
        | _, _                          => none
      | _                 => (members n rest).map (m.has :: ·)

/-- A set, without its brackets. -/
def set (text : Text) : Option Regex :=
  match text with
  | '^' :: text => (A.members f text.length text).map fun ps =>
      .char fun c => !(ps.any fun p => p c || (f.ignoreCase && (A.cases c).any p))
  | text        => (A.members f text.length text).map fun ps =>
      A.oneOf f fun c => ps.any fun p => p c

end Alphabet

/-! ### Heads of groups -/

def Flags.add (f : Flags) : Char → Option Flags
  | 'i' => some { f with ignoreCase := true }
  | 'm' => some { f with multiline := true }
  | 's' => some { f with dotAll := true }
  | 'a' => some { f with ascii := true }
  | 'u' => some { f with ascii := false }
  | 'x' => some { f with verbose := true }
  | _   => none

def Flags.remove (f : Flags) : Char → Option Flags
  | 'i' => some { f with ignoreCase := false }
  | 'm' => some { f with multiline := false }
  | 's' => some { f with dotAll := false }
  | 'x' => some { f with verbose := false }
  | _   => none

/-- `(?flags)` and `(?flags-flags:` -/
def flagsHead (f : Flags) (text : Text) : Scan (List Action) :=
  let letters := text.dropLast
  match text.getLast? with
  | some ')' =>
    match letters.foldlM Flags.add f, letters with
    | some f, _ :: _ => .done [.flags f]
    | _, _           => .bad
  | some ':' =>
    let on := letters.takeWhile (· != '-')
    let off := (letters.dropWhile (· != '-')).drop 1
    match (on.foldlM Flags.add f).bind fun f => off.foldlM Flags.remove f with
    | some f => if letters ≠ on ∧ off = [] then .bad else .done [.opens .plain f]
    | none   => .bad
  | some c   => if c ∈ "aimsux-".toList then .more else .bad
  | none     => .more

/-- A comment ends with a parenthesis that is not escaped. -/
def commentEnds : Text → Bool
  | []             => false
  | '\\' :: _ :: t => commentEnds t
  | [c]            => c = ')'
  | _ :: t         => commentEnds t

/-- The head of a group, behind `(?`. -/
def groupHead (A : Alphabet) (f : Flags) (g : Groups) : Text → Scan (List Action)
  | [':']              => .done [.opens .plain f]
  | ['=']              => .done [.opens (.look true false) f]
  | ['!']              => .done [.opens (.look true true) f]
  | ['<']              => .more
  | ['<', '=']         => .done [.opens (.look false false) f]
  | ['<', '!']         => .done [.opens (.look false true) f]
  | ['>']              => .done [.opens .atomic f]
  | ['P']              => .more
  | 'P' :: '<' :: text =>
    upTil '>' text fun name => if identifier name then .done [.capture (some name)] else .bad
  | 'P' :: '=' :: text =>
    upTil ')' text fun name =>
      match (g.names.lookup name).bind fun n => (g.closed.lookup n).map fun width => (n, width) with
      | some (n, width) => .done [.item (.atom (.backref n (A.same f) width))]
      | none            => .bad
  | '#' :: text        => if commentEnds text then .done [] else .more
  | '(' :: text        =>
    upTil ')' text fun id =>
      match condition id with
      | some n => .done [.opens (.cond n) f]
      | none   => .bad
  | text               => flagsHead f text
where
  identifier (name : Text) : Bool :=
    name.all A.word && name.head?.any fun c => !c.isDigit
  condition (id : Text) : Option Nat :=
    match g.names.lookup id with
    | some n => some n
    | none   =>
      let n := number 10 (id.map fun c => c.toNat - '0'.toNat)
      if id.all Char.isDigit ∧ 0 < n then some n else none

/-- The bounds of a repetition, without the braces. -/
def bounds (text : Text) : Option (Nat × Option Nat) :=
  let lo := text.takeWhile (· != ',')
  let hi := (text.dropWhile (· != ',')).drop 1
  let value (digits : Text) : Nat := number 10 (digits.map fun c => c.toNat - '0'.toNat)
  if lo = text then some (value lo, some (value lo))
  else if hi = [] then some (value lo, none)
  else if value lo ≤ value hi then some (value lo, some (value hi))
  else none

/-! ### Reading a source -/

section Reading

variable (A : Alphabet) (f : Flags) (g : Groups)

/-- What a character does with nothing pending. -/
def plain (c : Char) : List Action × Mode :=
  if f.verbose ∧ c ∈ " \t\n\r\x0b\x0c".toList then ([], .plain)
  else if f.verbose ∧ c = '#' then ([], .comment false)
  else
    match c with
    | '|'  => ([.bar], .plain)
    | ')'  => ([.close], .plain)
    | '('  => ([], .head [])
    | '['  => ([], .set [] false)
    | '\\' => ([], .escape [])
    | '{'  => ([], .brace [])
    | '*'  => ([.rep 0 none], .repeated)
    | '+'  => ([.rep 1 none], .repeated)
    | '?'  => ([.rep 0 (some 1)], .repeated)
    | '.'  => ([.item (.atom (Alphabet.any f))], .plain)
    | '^'  => ([.item (.anchor (Alphabet.lineStart f))], .plain)
    | '$'  => ([.item (.anchor (Alphabet.lineEnd f))], .plain)
    | c    => ([.item (.atom (A.literal f c))], .plain)

/-- Whether digits behind a backslash go on. -/
def goesOn (text : Text) (c : Char) : Bool :=
  match text with
  | ['0'] | ['0', _] => octal c
  | [_]              => c.isDigit
  | [d, e]           => octal d && octal e && octal c
  | _                => false

/-- What a character does that belongs to what is pending. -/
def pending : Mode → Char → Option (Option (List Action × Mode))
  | .plain, _            => none
  | .repeated, '?'       => some (some ([.how .lazy], .plain))
  | .repeated, '+'       => some (some ([.how .possessive], .plain))
  | .repeated, _         => none
  | .comment escaped, c  =>
    if f.verbose then
      if escaped then some (some ([], .comment false))
      else some (some ([], if c = '\n' then .plain else .comment (c = '\\')))
    else none
  | .escape text, c      => some <|
    if text = [] ∧ c.isDigit then some ([], .digits [c])
    else
      match A.escape f (text ++ [c]) with
      | .more   => some ([], .escape (text ++ [c]))
      | .done i => some ([.item i], .plain)
      | .bad    => none
  | .digits text, c      =>
    if goesOn text c then some (some ([], .digits (text ++ [c]))) else none
  | .brace text, c       =>
    if c.isDigit ∨ (c = ',' ∧ ',' ∉ text) then some (some ([], .brace (text ++ [c])))
    else if c = '}' ∧ text ≠ [] then
      some ((bounds text).map fun (min, max) => ([.rep min max], .repeated))
    else none
  | .set text escaped, c => some <|
    if escaped then some ([], .set (text ++ [c]) false)
    else if c = '\\' then some ([], .set (text ++ [c]) true)
    else if c = ']' ∧ text ≠ [] ∧ text ≠ ['^'] then
      (A.set f text).map fun r => ([.item (.atom r)], .plain)
    else some ([], .set (text ++ [c]) false)
  | .head [], c          => if c = '?' then some (some ([], .head ['?'])) else none
  | .head (q :: text), c => some <|
    match groupHead A f g (text ++ [c]) with
    | .more      => some ([], .head (q :: (text ++ [c])))
    | .done acts => some (acts, .plain)
    | .bad       => none

/-- What is pending, where nothing more belongs to it. -/
def settle : Mode → Option (List Action)
  | .plain         => some []
  | .repeated      => some []
  | .comment false => some []
  | .digits text   => (A.reference f g text).map fun i => [.item i]
  | .brace text    => some (('{' :: text).map fun c => .item (.atom (A.literal f c)))
  | .head []       => some [.capture none]
  | _              => none

/-- What a character does, from what is pending. -/
def read (m : Mode) (c : Char) : Option (List Action × Mode) :=
  match pending A f g m c with
  | some r => r
  | none   => (settle A f g m).map fun acts => (acts ++ (plain A f c).1, (plain A f c).2)

end Reading

/-- One character of a source. -/
def State.step (A : Alphabet) (s : State) (c : Char) : Option State :=
  (read A s.flags s.groups s.mode c).bind fun (acts, mode) =>
    (acts.foldlM State.act s).map fun s => { s with mode := mode }

/-- An expression, and its global flags. -/
structure Compiled where
  pattern : Pattern
  groups  : Nat
  global? : Option Flags

/-- The end of a source: no group is open, and conditions ask for groups that exist. -/
def State.finish (A : Alphabet) (s : State) : Option Compiled :=
  (settle A s.flags s.groups s.mode).bind fun acts =>
    (acts.foldlM State.act s).bind fun s =>
      if s.opens.isEmpty ∧ ∀ n ∈ s.groups.asked, n ≤ s.groups.count then
        some { pattern := s.bottom.pattern, groups := s.groups.count, global? := s.global? }
      else none

/-- **`re.compile`** -/
def compile (A : Alphabet) (source : Text) : Option Compiled :=
  (source.foldlM (State.step A) {}).bind (State.finish A)

/-! ### `^` in front of a source -/

/-- Something in front of the first alternative. -/
def Alts.behind (i : Item) (a : Alts) : Alts :=
  match a.front with
  | []      => { a with items := a.items ++ [i] }
  | b :: bs => { a with front := (i :: b) :: bs }

/-- The state behind a `^` at the very beginning. -/
def State.caret (s : State) : State := { s with bottom := s.bottom.behind (.anchor Re.caret) }

/-- What is read behind a `^` becomes what is read without it, or global flags stand behind the
    `^`. -/
def Carried (s s' : State) (r : Option State) : Prop :=
  (r = some s'.caret ∧ s'.global? = s.global?) ∨ (r = none ∧ s'.global?.isSome)

section Carry

variable {A : Alphabet} {i j : Item} {a a' : Alts} {s s' : State}

/-- An item in front and one at the end do not meet, -/
theorem behind_push (i j : Item) (a : Alts) : (a.behind i).push j = (a.push j).behind i := by
  obtain ⟨front, items⟩ := a
  cases front <;> rfl

/-- nor does one in front and a new alternative, -/
theorem behind_bar (i : Item) (a : Alts) : (a.behind i).bar = a.bar.behind i := by
  obtain ⟨front, items⟩ := a
  cases front with
  | nil => simp [Alts.behind, Alts.bar]
  | cons b bs => rfl

/-- a repetition -/
theorem behind_rep {min : Nat} {max : Option Nat} (h : a.rep min max = some a') :
    (a.behind i).rep min max = some (a'.behind i) := by
  obtain ⟨front, items⟩ := a
  unfold Alts.rep at h
  split at h
  · next r items' hitems =>
    obtain rfl : items = .atom r :: items' := hitems
    obtain rfl := Option.some.inj h
    cases front <;> rfl
  · cases h

/-- or the kind of one. -/
theorem behind_how {how : Repetition} (h : a.how how = some a') :
    (a.behind i).how how = some (a'.behind i) := by
  obtain ⟨front, items⟩ := a
  unfold Alts.how at h
  split at h
  · next r min max how' items' hitems =>
    obtain rfl : items = .rep r min max how' :: items' := hitems
    obtain rfl := Option.some.inj h
    cases front <;> rfl
  · cases h

/-- So a change at the end is carried over the caret in front. -/
theorem caret_update {change : Alts → Option Alts}
    (hchange : ∀ a a', change a = some a' →
      change (a.behind (.anchor caret)) = some (a'.behind (.anchor caret)))
    (h : s.update change = some s') : Carried s s' (s.caret.update change) := by
  obtain ⟨bottom, opens, global?, groups, mode⟩ := s
  unfold State.update at h
  cases opens with
  | nil =>
    obtain ⟨a, ha, rfl⟩ := Option.map_eq_some_iff.mp h
    refine .inl ⟨?_, rfl⟩
    simp only [State.update, State.caret, hchange _ _ ha, Option.map_some]
  | cons o os =>
    obtain ⟨a, ha, rfl⟩ := Option.map_eq_some_iff.mp h
    refine .inl ⟨?_, rfl⟩
    simp only [State.update, State.caret, ha, Option.map_some]

/-- An item that is pushed is one. -/
theorem caret_push (i : Item) (h : s.update (fun a => some (a.push i)) = some s') :
    Carried s s' (s.caret.update fun a => some (a.push i)) := by
  refine caret_update (fun a a' ha => ?_) h
  obtain rfl := Option.some.inj ha
  rw [behind_push]

/-- What an action does is the same behind a `^`, but for global flags. -/
theorem carried_act (act : Action) (h : s.act act = some s') :
    Carried s s' (s.caret.act act) := by
  cases act with
  | item i => exact caret_push i h
  | rep min max =>
    have h : s.update (Alts.rep min max) = some s' := h
    exact caret_update (fun _ _ => behind_rep) h
  | how how =>
    have h : s.update (Alts.how how) = some s' := h
    exact caret_update (fun _ _ => behind_how) h
  | bar =>
    have h : s.update (fun a => some a.bar) = some s' := h
    refine caret_update (fun a a' ha => ?_) h
    obtain rfl := Option.some.inj ha
    rw [behind_bar]
  | capture name =>
    -- which names are free does not depend on what stands at the bottom
    have hstep : s.caret.act (.capture name) = (s.act (.capture name)).map State.caret := by
      simp only [State.act, apply_ite (Option.map State.caret)]
      rfl
    rw [hstep, h]
    refine .inl ⟨rfl, ?_⟩
    unfold State.act at h
    dsimp only at h
    generalize (match name with
      | some t => (t, s.groups.count + 1) :: s.groups.names
      | none => s.groups.names) = names at h
    split at h
    · obtain rfl := Option.some.inj h
      rfl
    · cases h
  | opens kind flags =>
    obtain rfl := Option.some.inj h
    exact .inl ⟨rfl, rfl⟩
  | close =>
    obtain ⟨bottom, opens, global?, groups, mode⟩ := s
    cases opens with
    | nil => cases h
    | cons o os =>
      obtain ⟨⟨i, groups'⟩, hclose, h⟩ := Option.bind_eq_some_iff.mp h
      have hcarried := caret_push i h
      have hact : (State.caret ⟨bottom, o :: os, global?, groups, mode⟩).act .close =
          (State.caret ⟨bottom, os, global?, groups', mode⟩).update
            fun a => some (a.push i) := by
        simp only [State.act, State.caret, hclose, Option.bind_some]
      rw [hact]
      exact hcarried
  | flags f =>
    obtain ⟨⟨front, items⟩, opens, global?, groups, mode⟩ := s
    -- global flags count only where nothing stands before them
    match opens, front, items with
    | [], [], [] =>
      obtain rfl := Option.some.inj h
      exact .inr ⟨rfl, rfl⟩
    | [], [], i :: items => cases h
    | [], b :: bs, items => cases h
    | o :: os, front, items => cases h

/-- What each step carries, a run carries. -/
theorem carried_foldlM {β : Type} {step : State → β → Option State}
    (hstep : ∀ s b s', step s b = some s' → Carried s s' (step s.caret b)) (bs : List β) :
    ∀ s s', bs.foldlM step s = some s' → Carried s s' (bs.foldlM step s.caret) := by
  induction bs with
  | nil =>
    intro s s' h
    obtain rfl := Option.some.inj h
    exact .inl ⟨rfl, rfl⟩
  | cons b bs ih =>
    intro s s' h
    obtain ⟨m, hm, h⟩ := Option.bind_eq_some_iff.mp h
    rw [List.foldlM_cons]
    have hrest := ih m s' h
    rcases hstep s b m hm with ⟨hb, hglobal⟩ | ⟨hb, hglobal⟩
    · rw [hb]
      rcases hrest with ⟨hr, hglobal'⟩ | hr
      · exact .inl ⟨hr, hglobal'.trans hglobal⟩
      · exact .inr hr
    · rw [hb]
      refine .inr ⟨rfl, ?_⟩
      rcases hrest with ⟨-, hglobal'⟩ | ⟨-, hglobal'⟩
      · rw [hglobal']
        exact hglobal
      · exact hglobal'

/-- Hence the caret is carried over every character. -/
theorem carried_step (A : Alphabet) (c : Char) (h : s.step A c = some s') :
    Carried s s' (s.caret.step A c) := by
  obtain ⟨⟨acts, mode⟩, hread, h⟩ := Option.bind_eq_some_iff.mp h
  obtain ⟨m, hm, rfl⟩ := Option.map_eq_some_iff.mp h
  have hread' : read A s.caret.flags s.caret.groups s.caret.mode c = some (acts, mode) := hread
  unfold State.step
  rw [hread', Option.bind_some]
  have hacts : Carried s m (acts.foldlM State.act s.caret) :=
    carried_foldlM (fun _ a _ => carried_act a) acts s m hm
  dsimp only
  rcases hacts with ⟨hr, hglobal⟩ | ⟨hr, hglobal⟩
  · rw [hr]
    exact .inl ⟨rfl, hglobal⟩
  · rw [hr]
    exact .inr ⟨rfl, hglobal⟩

end Carry

/-! ### `$` behind a source -/

/-- Neither the global flags nor whether a group is open has changed. -/
structure Still (s s' : State) : Prop where
  global : s'.global? = s.global?
  opens  : s'.opens = [] → s.opens = []

section Ends

variable {A : Alphabet} {s s' : State} {acts : List Action} {c : Compiled}

/-- An item opens and closes nothing, -/
theorem still_item {i : Item} (h : s.act (.item i) = some s') : Still s s' := by
  obtain ⟨bottom, opens, global?, groups, mode⟩ := s
  have hupdate : State.update ⟨bottom, opens, global?, groups, mode⟩
      (fun a => some (a.push i)) = some s' := h
  cases opens with
  | nil =>
    obtain rfl := Option.some.inj hupdate
    exact ⟨rfl, id⟩
  | cons o os =>
    obtain rfl := Option.some.inj hupdate
    exact ⟨rfl, fun hnil => by cases hnil⟩

/-- and neither do several. -/
theorem still_items (is : List Item) :
    ∀ s s', (is.map Action.item).foldlM State.act s = some s' → Still s s' := by
  induction is with
  | nil =>
    intro s s' h
    obtain rfl := Option.some.inj h
    exact ⟨rfl, id⟩
  | cons i is ih =>
    intro s s' h
    obtain ⟨m, hm, h⟩ := Option.bind_eq_some_iff.mp h
    have hfirst := still_item hm
    have hrest := ih m s' h
    exact ⟨hrest.global.trans hfirst.global, fun hnil => hfirst.opens (hrest.opens hnil)⟩

/-- What is settled at the end opens nothing. -/
theorem still_settle {f : Flags} {g : Groups} {m : Mode} (hsettle : settle A f g m = some acts)
    (h : acts.foldlM State.act s = some s') : s'.opens = [] → Still s s' := by
  intro hnil
  cases m with
  | plain =>
    obtain rfl := Option.some.inj hsettle
    exact still_items [] s s' h
  | repeated =>
    obtain rfl := Option.some.inj hsettle
    exact still_items [] s s' h
  -- a comment that is open at the end of the text is no pattern
  | comment escaped =>
    cases escaped with
    | false =>
      obtain rfl := Option.some.inj hsettle
      exact still_items [] s s' h
    | true => cases hsettle
  | digits text =>
    obtain ⟨i, -, rfl⟩ := Option.map_eq_some_iff.mp hsettle
    exact still_items [i] s s' h
  -- a brace that is no repetition is literal
  | brace text =>
    obtain rfl := Option.some.inj hsettle
    refine still_items (('{' :: text).map fun c => .atom (A.literal f c)) s s' ?_
    rw [List.map_map]
    exact h
  | head text =>
    cases text with
    | nil =>
      obtain rfl := Option.some.inj hsettle
      obtain ⟨m, hm, h⟩ := Option.bind_eq_some_iff.mp h
      obtain rfl := Option.some.inj h
      unfold State.act at hm
      dsimp only at hm
      split at hm
      · obtain rfl := Option.some.inj hm
        cases hnil
      · cases hm
    | cons q text => cases hsettle
  | escape text => cases hsettle
  | set text escaped => cases hsettle

/-- `$` belongs to nothing that may be pending at the end of a source. -/
theorem pending_dollar {g : Groups} {m : Mode} (h : settle A {} g m = some acts) :
    pending A {} g m '$' = none := by
  cases m with
  | plain => rfl
  | repeated => rfl
  | comment => rfl
  | digits text =>
    have hstop : goesOn text '$' = false := by
      have hdigit : Char.isDigit '$' = false := rfl
      have hoctal : octal '$' = false := rfl
      unfold goesOn
      split <;> simp [hdigit, hoctal]
    simp [pending, hstop]
  | brace text =>
    have hdigit : Char.isDigit '$' = false := rfl
    simp [pending, hdigit]
  | head text =>
    cases text with
    | nil => rfl
    | cons q text => cases h
  | escape text => cases h
  | set text escaped => cases h

/-- An expression with one more item at the end of its last alternative. -/
def Pattern.ended (e : Pattern) : Pattern := { e with last := e.last ++ [dollar] }

/-- So a dollar may stand behind a pattern that is finished. -/
theorem finish_dollar (h : s.finish A = some c) (hglobal : s.global? = none) :
    (s.step A '$').bind (State.finish A) = some { c with pattern := c.pattern.ended } := by
  obtain ⟨acts, hsettle, h⟩ := Option.bind_eq_some_iff.mp h
  obtain ⟨m, hm, h⟩ := Option.bind_eq_some_iff.mp h
  split at h
  · next hend =>
    obtain rfl := Option.some.inj h
    have hopens : m.opens = [] := List.isEmpty_iff.mp hend.1
    have hstill := still_settle hsettle hm hopens
    -- with nothing open the flags are those of the beginning, so a dollar is an anchor
    have hflags : s.flags = {} := by
      unfold State.flags
      rw [hstill.opens hopens, hglobal]
      rfl
    rw [hflags] at hsettle
    have hread : read A s.flags s.groups s.mode '$' =
        some (acts ++ [.item (.anchor dollar)], .plain) := by
      rw [hflags, read, pending_dollar hsettle, hsettle]
      rfl
    obtain ⟨bottom, opens, global?, groups, mode⟩ := m
    obtain rfl : opens = [] := hopens
    have hacts : (acts ++ [Action.item (.anchor dollar)]).foldlM State.act s =
        some ⟨bottom.push (.anchor dollar), [], global?, groups, mode⟩ := by
      rw [List.foldlM_append, hm]
      rfl
    have hstep : s.step A '$' =
        some ⟨bottom.push (.anchor dollar), [], global?, groups, .plain⟩ := by
      rw [State.step, hread, Option.bind_some]
      dsimp only
      rw [hacts]
      rfl
    have hpattern : (bottom.push (.anchor dollar)).pattern = bottom.pattern.ended := by
      simp [Alts.pattern, Alts.push, Pattern.ended, Item.regex]
    rw [hstep, ← hpattern]
    exact if_pos ⟨rfl, hend.2⟩
  · cases h

end Ends

/-! ### Both anchors -/

section Anchored

variable {A : Alphabet} {s s' : State} {c : Compiled}

/-- An expression with one more item at the beginning of its first alternative. -/
def Pattern.begun (e : Pattern) : Pattern :=
  match e.front with
  | []      => { e with last := caret :: e.last }
  | b :: bs => { e with front := (caret :: b) :: bs }

/-- A pattern behind a caret begins at the beginning. -/
theorem pattern_behind (a : Alts) : (a.behind (.anchor caret)).pattern = a.pattern.begun := by
  obtain ⟨front, items⟩ := a
  cases front with
  | nil => simp [Alts.behind, Alts.pattern, Pattern.begun, Item.regex]
  | cons b bs => rfl

/-- One that begins and ends is anchored. -/
theorem begun_ended (e : Pattern) : e.begun.ended = e.anchored := by
  obtain ⟨front, last⟩ := e
  cases front <;> rfl

/-- So a caret may stand in front of it. -/
theorem finish_caret (h : s.finish A = some c) (hglobal : s.global? = none) :
    s.caret.finish A = some { c with pattern := c.pattern.begun } := by
  obtain ⟨acts, hsettle, h⟩ := Option.bind_eq_some_iff.mp h
  obtain ⟨m, hm, h⟩ := Option.bind_eq_some_iff.mp h
  split at h
  · next hend =>
    obtain rfl := Option.some.inj h
    have hstill := still_settle hsettle hm (List.isEmpty_iff.mp hend.1)
    have hacts : Carried s m (acts.foldlM State.act s.caret) :=
      carried_foldlM (fun _ a _ => carried_act a) acts s m hm
    rcases hacts with ⟨hr, -⟩ | ⟨-, hsome⟩
    · have hsettle' : settle A s.caret.flags s.caret.groups s.caret.mode = some acts := hsettle
      rw [State.finish, hsettle', Option.bind_some, hr, Option.bind_some]
      dsimp only
      rw [← pattern_behind]
      exact if_pos hend
    · rw [hstill.global, hglobal] at hsome
      cases hsome
  · cases h

/-- The flags of an expression are those its source has been read with. -/
theorem finish_global (h : s.finish A = some c) : c.global? = s.global? := by
  obtain ⟨acts, hsettle, h⟩ := Option.bind_eq_some_iff.mp h
  obtain ⟨m, hm, h⟩ := Option.bind_eq_some_iff.mp h
  split at h
  · next hend =>
    obtain rfl := Option.some.inj h
    exact (still_settle hsettle hm (List.isEmpty_iff.mp hend.1)).global
  · cases h

/-- **Anchors around a source** anchor its first and its last alternative.  Behind `^`, global
    flags are refused. -/
theorem compile_anchored {source : Text} (h : compile A source = some c) :
    compile A ('^' :: (source ++ ['$'])) =
      if c.global?.isSome then none else some { c with pattern := c.pattern.anchored } := by
  obtain ⟨s, hs, hfinish⟩ := Option.bind_eq_some_iff.mp h
  have hcaret : State.step A {} '^' = some (State.caret {}) := rfl
  have hrun : Carried {} s (source.foldlM (State.step A) (State.caret {})) :=
    carried_foldlM (fun _ b _ => carried_step A b) source {} s hs
  have hglobal := finish_global hfinish
  unfold compile
  rw [List.foldlM_cons, hcaret, Option.bind_eq_bind, Option.bind_some, List.foldlM_append]
  rcases hrun with ⟨hr, hnone⟩ | ⟨hr, hsome⟩
  · have hunflagged : c.global? = none := hglobal.trans hnone
    have hended := finish_dollar (finish_caret hfinish hnone) hnone
    dsimp only at hended
    rw [begun_ended] at hended
    have hlast : List.foldlM (State.step A) s.caret ['$'] = s.caret.step A '$' := bind_pure _
    rw [hr, Option.bind_eq_bind, Option.bind_some, hlast, hended, if_neg (by simp [hunflagged])]
  · rw [hr, hglobal, if_pos hsome]
    rfl

end Anchored

end Maubot.Re

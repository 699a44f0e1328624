import PocketCalc.Token

/-!
# The expression buffer

The tokens typed so far.  The buffer knows nothing about values.  It keeps the rules of
entry: no operator first, after another operator or after an opening parenthesis, no
percent sign but after a number or a group, and digits that follow one another in a
single number.
-/

namespace PocketCalc

/-- How the parenthesis key chooses between the two parentheses. -/
inductive ParenMode where
  /-- It closes when the last parenthesis in the buffer opens. -/
  | toggle
  /-- It closes when an operand has just ended inside a group. -/
  | balanced
deriving DecidableEq

/-- Why a token was not appended. -/
inductive BufferError where
  | leadingOperator
  | consecutiveOperator
  | operatorAfterParen
  | danglingPercent
  | malformedNumber
deriving DecidableEq

namespace BufferError

def message : BufferError → String
  | leadingOperator => "an expression cannot start with an operator"
  | consecutiveOperator => "an operator cannot follow another operator"
  | operatorAfterParen => "an operator cannot follow an opening parenthesis"
  | danglingPercent => "percent must follow a number or a closing parenthesis"
  | malformedNumber => "number text must be digits with at most one decimal point"

end BufferError

/-- The tokens typed so far, in order. -/
structure Buffer where
  tokens : List Token := []
deriving DecidableEq

namespace Buffer

def empty : Buffer := ⟨[]⟩

/-- The buffer that holds a single number with the given text. -/
def seeded (text : String) : Buffer := ⟨[.number text]⟩

def isEmpty (b : Buffer) : Bool := b.tokens.isEmpty

def last? (b : Buffer) : Option Token := b.tokens.getLast?

def endsWithOperator (b : Buffer) : Bool := b.last?.any Token.isOperator

/-- The text of the number that further digits extend: the last token, if a number. -/
def openNumber? (b : Buffer) : Option String :=
  match b.last? with
  | some (.number text) => some text
  | _ => none

/-- Adds a token at the end, whatever it is. -/
def push (b : Buffer) (t : Token) : Buffer := ⟨b.tokens ++ [t]⟩

/-- Takes the last token off. -/
def pop (b : Buffer) : Buffer := ⟨b.tokens.dropLast⟩

/-! ## Appending -/

/-- Whether number text may be appended after the open number, if there is one: digits
and points, not empty, with at most one point in the number that results.  A number that
is not open yet may start with a minus sign. -/
def admits (opened : Option String) (text : String) : Bool :=
  let body :=
    match opened, text.toList with
    | none, '-' :: unsigned => unsigned
    | _, cs => cs
  let points := (opened.map fun s => s.toList.count '.').getD 0
  !body.isEmpty && body.all (fun c => c.isDigit || c == '.') && body.count '.' + points ≤ 1

/-- The open number `opened` with more text after it.  A lone zero gives way to digits. -/
def extend (opened text : String) : String :=
  if opened = "0" ∧ text.toList.head? ≠ some '.' then text else opened ++ text

/-- Appends number text, to the open number if there is one. -/
def appendNumber (b : Buffer) (text : String) : Except BufferError Buffer :=
  if admits b.openNumber? text then
    match b.openNumber? with
    | some opened => .ok (b.pop.push (.number (extend opened text)))
    | none => .ok (b.push (.number text))
  else .error .malformedNumber

/-- Appends a token if the rules of entry allow it. -/
def append (b : Buffer) (t : Token) : Except BufferError Buffer :=
  match t with
  | .operator _ =>
    match b.last? with
    | none => .error .leadingOperator
    | some (.operator _) => .error .consecutiveOperator
    | some .leftParen => .error .operatorAfterParen
    | some _ => .ok (b.push t)
  | .percent =>
    match b.last? with
    | some (.number _) | some .rightParen => .ok (b.push t)
    | _ => .error .danglingPercent
  | .number text => b.appendNumber text
  | .leftParen | .rightParen => .ok (b.push t)

/-- Appends a character as number text.  One that may not be appended leaves the buffer as
it is. -/
def appendDigit (b : Buffer) (c : Char) : Buffer :=
  match b.append (.number (String.singleton c)) with
  | .ok b' => b'
  | .error _ => b

/-- Appends a decimal point to the open number, unless it has one.  Without an open
number a new one starts with a zero. -/
def appendPoint (b : Buffer) : Buffer :=
  match b.openNumber? with
  | some text => if '.' ∈ text.toList then b else b.pop.push (.number (text.push '.'))
  | none => b.push (.number "0.")

/-! ## Parentheses -/

/-- How many groups are open after `depth` of them and then a token.  A closing
parenthesis with no open group counts for nothing. -/
def depthAfter (depth : Nat) : Token → Nat
  | .leftParen => depth + 1
  | .rightParen => depth - 1
  | _ => depth

/-- How many opening parentheses wait for a closing one. -/
def depth (b : Buffer) : Nat := b.tokens.foldl depthAfter 0

/-- The parenthesis that the parenthesis key stands for. -/
def nextParen (b : Buffer) : ParenMode → Token
  | .toggle =>
    if (b.tokens.filter Token.isParen).getLast? = some .leftParen then .rightParen else .leftParen
  | .balanced =>
    if 0 < b.depth ∧ b.last?.any Token.endsOperand then .rightParen else .leftParen

/-- Appends the parenthesis that the parenthesis key stands for. -/
def appendParen (b : Buffer) (mode : ParenMode) : Buffer := b.push (b.nextParen mode)

/-! ## Deleting and rendering -/

/-- Deletes the last character.  A number left empty or with nothing but its sign goes as
a whole. -/
def backspace (b : Buffer) : Buffer :=
  match b.openNumber? with
  | some text =>
    let shorter := text.toList.dropLast
    if shorter = [] ∨ shorter = ['-'] then b.pop else b.pop.push (.number (String.ofList shorter))
  | none => b.pop

/-- The expression as typed; an empty buffer shows a zero. -/
def render (b : Buffer) : String :=
  if b.isEmpty then "0" else String.ofList (b.tokens.flatMap Token.chars)

/-! ## The end of a buffer -/

theorem tokens_push (b : Buffer) (t : Token) : (b.push t).tokens = b.tokens ++ [t] := rfl

theorem tokens_pop (b : Buffer) : b.pop.tokens = b.tokens.dropLast := rfl

theorem last?_push (b : Buffer) (t : Token) : (b.push t).last? = some t := by
  simp [last?, push]

theorem pop_push (b : Buffer) (t : Token) : (b.push t).pop = b := by
  simp [pop, push]

theorem depth_push (b : Buffer) (t : Token) : (b.push t).depth = depthAfter b.depth t := by
  simp [depth, push]

theorem openNumber?_eq_some {b : Buffer} {text : String} :
    b.openNumber? = some text ↔ b.last? = some (.number text) := by
  unfold openNumber?
  split <;> simp_all

end Buffer
end PocketCalc

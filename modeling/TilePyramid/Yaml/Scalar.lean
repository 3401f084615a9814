import TilePyramid.Decimal
import TilePyramid.Yaml.Node

/-!
# What scalars mean

A plain scalar without a tag is null, a truth value, an integer, a number or else a text. A tag of
YAML itself asks for one of these. A quoted scalar is a text.
-/

set_option autoImplicit false

namespace TilePyramid.Yaml

/-- The meaning of a scalar. Integers that have no place in 64 bits are told apart. -/
inductive Scalar where
  | null
  | boolean (value : Bool)
  | natural (value : Nat)
  | negative (value : Int)
  | large
  | number
  | text (text : String)

namespace Scalar

/-- The spellings of null, the empty text aside. -/
def isNull (text : String) : Bool := ["null", "Null", "NULL", "~"].contains text

/-- Reads a truth value. -/
def boolean? (text : String) : Option Bool :=
  if ["true", "True", "TRUE"].contains text then some true
  else if ["false", "False", "FALSE"].contains text then some false
  else none

def digitValue? (base : Nat) (c : Char) : Option Nat :=
  (hexValue? c).filter (· < base)

def readDigits (base : Nat) (digits : List Char) : Option Nat :=
  if digits = [] then none
  else (digits.mapM (digitValue? base)).map (·.foldl (fun value digit => value * base + digit) 0)

def startsWithSign (text : List Char) : Bool := text.head? == some '+' || text.head? == some '-'

/-- Digits that are no number because they start with a needless zero. -/
def isPadded (text : List Char) : Bool :=
  let digits := if startsWithSign text then text.drop 1 else text
  match digits with
  | '0' :: rest => rest ≠ [] && rest.all Char.isDigit
  | _ => false

/-- Reads digits after the sign of a base. -/
def readBased : List Char → Option Nat
  | '0' :: 'x' :: digits => readDigits 16 digits
  | '0' :: 'o' :: digits => readDigits 8 digits
  | '0' :: 'b' :: digits => readDigits 2 digits
  | _ => none

/-- Reads an integer that is not negative, with an optional plus sign. -/
def natural? (text : List Char) : Option Nat :=
  let unsigned := if text.head? = some '+' then text.drop 1 else text
  (readBased unsigned).orElse fun _ =>
    if isPadded text then none else readDigits 10 unsigned

/-- Reads an integer with a minus sign. -/
def negative? : List Char → Option Int
  | '-' :: rest =>
      ((readBased rest).orElse fun _ =>
        if isPadded ('-' :: rest) then none else readDigits 10 rest).map fun value => -(value : Int)
  | _ => none

/-- Reads an integer of at most 128 bits. -/
def integer? (text : List Char) : Option Scalar :=
  match natural? text, negative? text with
  | some value, _ =>
      if value < Nat.pow 2 64 then some (.natural value)
      else if value < Nat.pow 2 128 then some .large
      else none
  | none, some value =>
      if -(Nat.pow 2 63 : Int) ≤ value then some (.negative value)
      else if -(Nat.pow 2 127 : Int) ≤ value then some .large
      else none
  | none, none => none

/-- The text writes a number of the infinite kind, or none, in the spelling of YAML. -/
def isSpecialNumber (text : List Char) : Bool :=
  let unsigned := if text.head? = some '+' then text.drop 1 else text
  let words := [".inf", ".Inf", ".INF"].map String.toList
  words.contains unsigned || (words.map ('-' :: ·)).contains text ||
    ([".nan", ".NaN", ".NAN"].map String.toList).contains text

def isNumber (text : List Char) : Bool :=
  let signed := text.head? == some '+' && startsWithSign (text.drop 1)
  isSpecialNumber text ||
    (!signed && (match Decimal.read? text with
      | some value => value.isFinite
      | none => false))

/-- The meaning of a plain scalar without a tag. -/
def ofPlain (text : String) : Scalar :=
  if text.isEmpty || isNull text then .null
  else
    match boolean? text, integer? text.toList with
    | some value, _ => .boolean value
    | none, some integer => integer
    | none, none =>
        if !isPadded text.toList && isNumber text.toList then .number else .text text

/-- The meaning of a scalar; a tag of YAML itself has to fit. -/
def ofScalar? (tag : Option String) (style : Style) (text : String) : Option Scalar :=
  match tag with
  | none => some (if style = .plain then ofPlain text else .text text)
  | some tag =>
      if tag = Node.coreTag ++ "bool" then (boolean? text).map .boolean
      else if tag = Node.coreTag ++ "int" then integer? text.toList
      else if tag = Node.coreTag ++ "float" then
        if isNumber text.toList then some .number else none
      else if tag = Node.coreTag ++ "null" then if isNull text then some .null else none
      else some (.text text)

end Scalar

namespace Node

/-- The node asks for a type that YAML does not define. -/
def isCustom : Node → Bool
  | .scalar tag _ _ | .sequence tag _ | .mapping tag _ =>
      (tag.bind fun tag => tag.toList.head?) == some '!'

/-- The text of a scalar, whatever its style and tag. -/
def text? : Node → Option String
  | .scalar _ _ text => some text
  | _ => none

def isLeftOut : Node → Bool
  | .scalar _ .plain text => text.isEmpty
  | _ => false

/-- The entries of a list; a scalar that is left out is an empty list. -/
def items? : Node → Option (List Node)
  | .sequence _ items => some items
  | node => if node.isLeftOut then some [] else none

/-- The pairs of a mapping; a scalar that is left out is an empty mapping. -/
def pairs? : Node → Option (List (Node × Node))
  | .mapping _ pairs => some pairs
  | node => if node.isLeftOut then some [] else none

/-- The node unless it is null. The null tag allows nothing else. -/
def present? : Node → Option (Option Node)
  | .scalar tag .plain text =>
      match tag with
      | none => some (if text.isEmpty || Scalar.isNull text then none
          else some (.scalar tag .plain text))
      | some name =>
          if name = coreTag ++ "null" then (if Scalar.isNull text then some none else none)
          else some (some (.scalar tag .plain text))
  | node => some (some node)

/-- Reads a number below a limit, of a plain scalar or of a literal one with the integer tag. -/
def natural? (limit : Nat) : Node → Option Nat
  | .scalar tag style text =>
      if style = .plain ∨ (style = .literal ∧ tag = some (coreTag ++ "int")) then
        (Scalar.natural? text.toList).filter (· < limit)
      else none
  | _ => none

end Node

end TilePyramid.Yaml

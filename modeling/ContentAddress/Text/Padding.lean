/-!
# Padding

Text is cut to at most `precision` characters and then filled up to `width` characters.  A
specification writes the fill character and the alignment, or flags that mean nothing for text.
-/

namespace ContentAddress.Text

inductive Alignment
  | left
  | right
  /-- In the middle; the odd fill character goes to the right. -/
  | center
deriving DecidableEq, Repr

def Alignment.ofSign? (sign : Char) : Option Alignment :=
  if sign = '<' then some left
  else if sign = '>' then some right
  else if sign = '^' then some center
  else none

structure Padding where
  fill : Char := ' '
  alignment : Alignment := .left
  width : Nat := 0
  /-- The largest number of characters taken from the text. -/
  precision : Option Nat := none
deriving DecidableEq, Repr

namespace Padding

/-- Whether only flags are left: a sign, `#` and `0`, each at most once and in this order. -/
def onlyFlags (flags : List Char) : Bool :=
  let flags := match flags with
    | '+' :: rest | '-' :: rest => rest
    | _ => flags
  let flags := match flags with
    | '#' :: rest => rest
    | _ => flags
  flags == [] || flags == ['0']

/-- Reads fill and alignment from a specification, or the alignment alone, or neither; flags may
follow. -/
def ofSpecification? (specification : String) : Option Padding :=
  let plain (chars : List Char) : Option Padding :=
    match chars with
    | [] => some {}
    | sign :: rest =>
        match Alignment.ofSign? sign with
        | some alignment => if onlyFlags rest then some { alignment } else none
        | none => if onlyFlags chars then some {} else none
  match specification.toList with
  | fill :: sign :: rest =>
      match Alignment.ofSign? sign with
      | some alignment => if onlyFlags rest then some { fill, alignment } else none
      | none => plain (fill :: sign :: rest)
  | chars => plain chars

/-- The number of fill characters before the text, when `missing` are needed in all. -/
def before (padding : Padding) (missing : Nat) : Nat :=
  match padding.alignment with
  | .left => 0
  | .right => missing
  | .center => missing / 2

def fit (padding : Padding) (text : List Char) : List Char :=
  let text := match padding.precision with
    | some precision => text.take precision
    | none => text
  let missing := padding.width - text.length
  let before := padding.before missing
  List.replicate before padding.fill ++ text ++ List.replicate (missing - before) padding.fill

def apply (padding : Padding) (text : String) : String :=
  String.ofList (padding.fit text.toList)

end Padding

end ContentAddress.Text

/-!
# The shape of a description

A description of a value is a tree of names and groups.  It is written on one line, or spread over
lines with one member each, indented by four spaces a level and followed by a comma.
-/

namespace ContentAddress.Text

inductive Brackets
  | braces
  | parentheses
  | squares
deriving DecidableEq, Repr

namespace Brackets

def opening : Brackets → String
  | braces => " \x7b"
  | parentheses => "("
  | squares => "["

def closing : Brackets → String
  | braces => "\x7d"
  | parentheses => ")"
  | squares => "]"

/-- What stands inside each bracket when the group is written on one line. -/
def inner : Brackets → String
  | braces => " "
  | parentheses | squares => ""

end Brackets

inductive Layout
  | atom (text : String)
  | entry (name : String) (value : Layout)
  /-- A head, possibly empty, followed by members in brackets.  A group that is not `complete` says
  that it has further members, which are not shown. -/
  | group (head : String) (brackets : Brackets) (members : List Layout) (complete : Bool)

namespace Layout

def record (name : String) (entries : List (String × Layout)) : Layout :=
  group name .braces (entries.map fun (member, value) => .entry member value) true

/-- A value with named members, not all of which are shown. -/
def openRecord (name : String) (entries : List (String × Layout)) : Layout :=
  group name .braces (entries.map fun (member, value) => .entry member value) false

def wrap (name : String) (value : Layout) : Layout :=
  group name .parentheses [value] true

def list (values : List Layout) : Layout := group "" .squares values true

def option : Option Layout → Layout
  | none => atom "None"
  | some value => wrap "Some" value

def number (n : Nat) : Layout := atom (toString n)

def truth (b : Bool) : Layout := atom (if b then "true" else "false")

mutual

def plain : Layout → String
  | atom text => text
  | entry name value => name ++ ": " ++ plain value
  | group head brackets members complete =>
      let shown := plainMembers members ++ if complete then [] else [".."]
      head ++ brackets.opening ++ brackets.inner ++ String.intercalate ", " shown ++
        brackets.inner ++ brackets.closing

def plainMembers : List Layout → List String
  | [] => []
  | member :: rest => plain member :: plainMembers rest

end

mutual

/-- The description over several lines, all but the first indented by at least `indent`.  A list
without members stays on its line. -/
def spread (indent : String) : Layout → String
  | atom text => text
  | entry name value => name ++ ": " ++ spread indent value
  | group head brackets members complete =>
      let deeper := indent ++ "    "
      let shown := spreadMembers deeper members ++ if complete then [] else [deeper ++ "..\n"]
      if shown.isEmpty then head ++ brackets.opening ++ brackets.closing
      else head ++ brackets.opening ++ "\n" ++ String.join shown ++ indent ++ brackets.closing

/-- Each member of a group, spread over lines of its own. -/
def spreadMembers (indent : String) : List Layout → List String
  | [] => []
  | member :: rest =>
      (indent ++ spread indent member ++ ",\n") :: spreadMembers indent rest

end

def pretty (layout : Layout) : String := spread "" layout

end Layout

end ContentAddress.Text

import Inliner.Syntax.Parser

/-!
The parts of the grammar that refer to each other. Every rule is written over a `Grammar`, which
stands for the rules it refers to, and `Syntax.Program` ties the knot.
-/

namespace Inliner.Syntax

/-- The surroundings of an expression: what may follow it and which forms it may take. -/
structure Mode where
  line : Bool := false
  close : Bool := false
  field : Bool := false
  conditional : Bool := true
  annotation : Bool := false
deriving Repr

namespace Mode

/-- An expression that a statement ends with. -/
def statement : Mode := { line := true }

def header : Mode := {}

def operand (mode : Mode) : Expected :=
  { quote := true, field := mode.field }

def operandOrEnd (mode : Mode) : Expected :=
  { newline := mode.line, close := mode.close, quote := true, field := mode.field }

def after (mode : Mode) : Expected :=
  { newline := mode.line, close := mode.close, field := mode.field }

def inside (mode : Mode) : Expected :=
  { field := mode.field }

def bracketed (mode : Mode) : Mode :=
  { close := true, field := mode.field }

/-- The surroundings of a part after which more has to follow. -/
def unfinished (mode : Mode) : Mode :=
  { field := mode.field }

end Mode

/-- The rules of the grammar that other rules refer to. -/
inductive Goal where
  | expression (mode : Mode)
  | target (mode : Mode)
  | field
  | rightSide
  | casePattern (mode : Mode)
  | block
deriving Repr

abbrev Grammar := Goal → Parser Tree

end Inliner.Syntax

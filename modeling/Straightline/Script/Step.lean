import Straightline.Emission.Compilation
import Straightline.Script.TokenStream

/-!
# Scripts as steps

A script amounts to steps in postfix order: operands come before their operator, and a stack holds
the values in between. Each step knows its place in the source.

* `Step.emit` adds to a compilation what a step amounts to.
* `Step.emitAll` makes steps up to the first that fails.
-/

namespace Straightline

/-- A step of a script. -/
inductive Step where
  /-- Push a constant. -/
  | push (value : Double)
  /-- Push the value of a variable. -/
  | read (name : String)
  /-- Replace the two values on top by the result of an operator. -/
  | apply (symbol : Symbol)
  /-- Replace the value on top by its difference from zero. -/
  | negate
  /-- Pop a value and store it to a variable. -/
  | write (name : String)
  /-- Pop a value and print it. -/
  | printNumber
  | printString (text : String)
  deriving DecidableEq

/-- A step with the stretch of source that is to blame if it fails. -/
structure PlacedStep where
  step : Step
  span : Span
  deriving DecidableEq

/-- Why a script cannot be compiled. -/
inductive ScriptError where
  | malformed (error : SyntaxError)
  | emission (cause : EmitError) (span : Span)
  deriving DecidableEq

/-- What a step amounts to, given the values on the stack, top first. A step that lacks its operands
    amounts to nothing. -/
def Step.emit : Step → List Operand → Emit (List Operand)
  | push value, stack => return .double value :: stack
  | read name, stack => return (← Emit.read name) :: stack
  | apply symbol, rhs :: lhs :: stack => return (← Emit.binaryOp lhs rhs symbol.text) :: stack
  | negate, value :: stack =>
    return (← Emit.apply (.double Double.zero) value (.arithmetic .sub)) :: stack
  | write name, value :: stack => do
    Emit.write name value
    return stack
  | printNumber, value :: stack => do
    let _ ← Emit.printNumber value
    return stack
  | printString text, stack => do
    let _ ← Emit.printString text
    return stack
  -- What follows is not reached: the steps of a script never take more than is there.
  | apply _, stack => return stack
  | negate, [] => return []
  | write _, [] => return []
  | printNumber, [] => return []

/-- Additions to a compilation on behalf of a script. What was added before an error stays. -/
abbrev Compile := ExceptT ScriptError (StateM Compilation)

/-- Blame a stretch of source for a step that fails. -/
def Emit.blaming (span : Span) {α : Type} (step : Emit α) : Compile α := fun c =>
  match step c with
  | (.ok a, c) => (.ok a, c)
  | (.error e, c) => (.error (.emission e span), c)

/-- Make steps one after the other, up to the first that fails. -/
def Step.emitAll : List PlacedStep → List Operand → Compile (List Operand)
  | [], stack => return stack
  | s :: steps, stack => do
    let stack ← Emit.blaming s.span (s.step.emit stack)
    emitAll steps stack

end Straightline

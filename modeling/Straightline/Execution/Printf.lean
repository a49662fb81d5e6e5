import Straightline.Double.Fixed
import Straightline.Execution.Value

/-!
# Formatted output

A format is text with conversions: `%s` takes a constant's text, `%f` a double with six decimal
places, and `%%` is a percent sign. Arguments that no conversion takes are ignored.

* `Module.printf` is the text that a list of arguments, the format first, makes.
-/

namespace Straightline.Module

/-- The argument that the next conversion takes, and the rest. -/
def nextArgument (format : String) : List Value → Except RunError (Value × List Value)
  | [] => .error (.badFormat (.notEnoughArguments format))
  | v :: vs => .ok (v, vs)

/-- The text that the rest of a format makes of the remaining arguments. Conversions are made from
    left to right, so the first one that fails decides the error. -/
def render (m : Module) (format : String) : List Char → List Value → Except RunError String
  | [], _ => .ok ""
  | '%' :: '%' :: cs, args => do
    let rest ← m.render format cs args
    return "%" ++ rest
  | '%' :: 's' :: cs, args => do
    let (v, args) ← nextArgument format args
    let text ← m.constantText v
    let rest ← m.render format cs args
    return text ++ rest
  | '%' :: 'f' :: cs, args => do
    let (v, args) ← nextArgument format args
    let d ← v.asDouble
    let rest ← m.render format cs args
    return d.toFixed 6 ++ rest
  -- Flags, widths and precisions are not read, and neither is a sign at the end.
  | '%' :: cs, _ => .error (.badFormat (.unsupportedConversion cs.head?))
  | c :: cs, args => do
    let rest ← m.render format cs args
    return String.singleton c ++ rest

/-- The text that a call with these arguments writes. -/
def printf (m : Module) : List Value → Except RunError String
  | [] => .error (.badFormat .missingFormat)
  | format :: args => do
    let format ← m.constantText format
    m.render format format.toList args

end Straightline.Module

import NodeLink.Lib.PyLoads
import NodeLink.Lib.PyText

/-!
# Typed parameters of a script, on the server

`render_script` of `core/script_parameters.py`.
-/

namespace NodeLink.Server.ScriptParameters

open Lib

/-- A value that `prepare_values` lets through. -/
inductive ScriptValue where
  | str (s : PyStr)
  | int (i : Int)
  | float (x : Double)
  | bool (b : Bool)
  deriving DecidableEq, Repr

inductive ScriptLanguage where
  | powershell
  | shell
  | other (language : String)
  deriving DecidableEq, Repr

inductive RenderError where
  | languageUnsupported
  /-- The `ValueError` of `json.dumps` for a number that is not finite. -/
  | outOfRange
  deriving DecidableEq, Repr

/-- The code of a `ScriptParameterError`. -/
def RenderError.code : RenderError → Option String
  | .languageUnsupported => some "parameter_language_unsupported"
  | .outOfRange => none

/-- `s.replace("'", new)` -/
def replaceApostrophes (s new : PyStr) : PyStr :=
  s.flatMap fun c => if c = ofChar '\x27' then new else [c]

variable (floats : FloatText)

/-- `json.dumps(value, allow_nan=False)` of a number -/
def dumpsNumber : PyNumber → Except RenderError PyStr
  | .int i => .ok ((intDigits i).map ofChar)
  | .float x => if x.isFinite then .ok (py (floats.repr x)) else .error .outOfRange

/-- `_powershell_literal` -/
def powershellLiteral : ScriptValue → Except RenderError PyStr
  | .bool b => .ok (py (if b then "$true" else "$false"))
  | .int i => dumpsNumber floats (.int i)
  | .float x => dumpsNumber floats (.float x)
  | .str s => .ok (py "'" ++ replaceApostrophes s (py "''") ++ py "'")

/-- `str(value)`, with booleans and numbers as JSON has them. -/
def shellText : ScriptValue → Except RenderError PyStr
  | .bool b => .ok (py (if b then "true" else "false"))
  | .int i => dumpsNumber floats (.int i)
  | .float x => dumpsNumber floats (.float x)
  | .str s => .ok s

/-- `_shell_literal` -/
def shellLiteral (value : ScriptValue) : Except RenderError PyStr :=
  (shellText floats value).map fun s =>
    py "'" ++ replaceApostrophes s (py "'\"'\"'") ++ py "'"

def bindingLines (language : ScriptLanguage) (key : String) (value : ScriptValue) :
    Except RenderError (List PyStr) :=
  let variableName := py ("NL_PARAM_" ++ key)
  match language with
  | .powershell =>
    (powershellLiteral floats value).map fun literal =>
      [py "$" ++ variableName ++ py " = " ++ literal]
  | .shell =>
    (shellLiteral floats value).map fun literal =>
      [variableName ++ py "=" ++ literal, py "export " ++ variableName]
  | .other _ => .error .languageUnsupported

def bindValues (language : ScriptLanguage) :
    List (String × ScriptValue) → Except RenderError (List PyStr)
  | [] => .ok []
  | (key, value) :: values =>
    match bindingLines floats language key value with
    | .error e => .error e
    | .ok lines => (bindValues language values).map (lines ++ ·)

/-- `"\n".join((*lines, script))` -/
def joinLines : List PyStr → PyStr → PyStr
  | [], script => script
  | line :: lines, script => line ++ py "\n" ++ joinLines lines script

/-- `render_script`; a `dict` in the order of its insertions. -/
def renderScript (language : ScriptLanguage) (script : PyStr)
    (values : List (String × ScriptValue)) : Except RenderError PyStr :=
  match language with
  | .other _ => .error .languageUnsupported
  | language => (bindValues floats language values).map (joinLines · script)

end NodeLink.Server.ScriptParameters

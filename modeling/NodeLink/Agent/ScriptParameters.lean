import NodeLink.Lib.Double
import NodeLink.Lib.JsonText

/-!
# Typed parameters of a script, on the agent

`agent/internal/executor/parameters.go`: the values are bound to variables in
front of the script, never put into its text. What `strconv` and `strings` do
with numbers and letters comes in as `GoText`.
-/

namespace NodeLink.Agent.ScriptParameters

open Lib

structure GoText where
  /-- `strings.ToLower` -/
  toLower : String → String
  /-- `strconv.ParseFloat(s, 64)`, without an error -/
  parseFloat : String → Option Double
  /-- `strconv.FormatFloat(x, 'g', -1, 64)` -/
  formatFloat : Double → String

inductive ParameterKind where
  | string
  | number
  | boolean
  | choice
  | secret
  | other (kind : String)
  deriving DecidableEq, Repr

/-- What `ParameterValue.Value` may hold. -/
inductive GoValue where
  | string (s : String)
  | bool (b : Bool)
  | jsonNumber (text : String)
  | float64 (x : Double)
  | int (i : Int)
  | other
  deriving DecidableEq, Repr

structure ParameterValue where
  key : String
  kind : ParameterKind
  value : GoValue
  secret : Bool := false
  deriving DecidableEq, Repr

/-- `parameterKeyPattern` -/
def parameterKeyPattern (key : String) : Bool :=
  match key.toList with
  | [] => false
  | c :: rest =>
    c.isAlpha && rest.all (fun c => c.isAlphanum || c == '_') &&
      decide (rest.length ≤ 63)

def formatBool (b : Bool) : String := if b then "true" else "false"

/-- `strconv.Itoa` -/
def itoa (i : Int) : String := String.ofList (intDigits i)

variable (go : GoText)

/-- `normalizedParameter` -/
def normalizedParameter (p : ParameterValue) : Except String String :=
  if !parameterKeyPattern p.key then .error "unsupported parameter key"
  else
    match p.kind with
    | .string | .choice | .secret =>
      match p.value with
      | .string text => .ok text
      | _ => .error s!"parameter {p.key} requires a string"
    | .boolean =>
      match p.value with
      | .bool b => .ok (formatBool b)
      | _ => .error s!"parameter {p.key} requires a boolean"
    | .number =>
      match p.value with
      | .jsonNumber text =>
        match go.parseFloat text with
        | some x =>
          if x.isFinite then .ok text
          else .error s!"parameter {p.key} requires a finite number"
        | none => .error s!"parameter {p.key} requires a finite number"
      | .float64 x =>
        if x.isFinite then .ok (go.formatFloat x)
        else .error s!"parameter {p.key} requires a finite number"
      | .int i => .ok (itoa i)
      | _ => .error s!"parameter {p.key} requires a number"
    | .other _ => .error s!"parameter {p.key} has unsupported kind"

/-- `strings.ReplaceAll(value, "'", new)` -/
def replaceApostrophes (value new : String) : String :=
  String.ofList (value.toList.flatMap fun c =>
    if c = '\x27' then new.toList else [c])

def quotePowerShell (value : String) : String :=
  "'" ++ replaceApostrophes value "''" ++ "'"

def quoteShell (value : String) : String :=
  "'" ++ replaceApostrophes value "'\"'\"'" ++ "'"

inductive ScriptKind where
  | powershell
  | shell
  | other (kind : String)
  deriving DecidableEq, Repr

/-- The lines that bind a value, for a kind of script that has them. -/
def bindingLines (kind : ScriptKind) (p : ParameterValue) (value : String) :
    Option (List String) :=
  let variableName := "NL_PARAM_" ++ p.key
  match kind with
  | .powershell =>
    let literal :=
      if p.kind = .boolean then (if value = "true" then "$true" else "$false")
      else if p.kind = .number then value
      else quotePowerShell value
    some ["$" ++ variableName ++ " = " ++ literal]
  | .shell =>
    some [variableName ++ "=" ++ quoteShell value, "export " ++ variableName]
  | .other _ => none

/-- The loop of `RenderParameterizedScript`, with the keys it has seen. -/
def bindParameters (kind : ScriptKind) (seen : List String) :
    List ParameterValue → Except String (List String)
  | [] => .ok []
  | p :: parameters =>
    let folded := go.toLower p.key
    if folded ∈ seen then .error "parameter keys must be unique ignoring case"
    else
      match normalizedParameter go p with
      | .error e => .error e
      | .ok value =>
        match bindingLines kind p value with
        | none => .error "parameter binding is unsupported for this command kind"
        | some lines =>
          (bindParameters kind (folded :: seen) parameters).map (lines ++ ·)

/-- `RenderParameterizedScript` -/
def renderParameterizedScript (kind : ScriptKind) (script : String)
    (parameters : List ParameterValue) : Except String String :=
  if parameters = [] then .ok script
  else if 32 < parameters.length then
    .error "at most 32 parameters are supported"
  else
    (bindParameters go kind [] parameters).map fun lines =>
      "\n".intercalate (lines ++ [script])

end NodeLink.Agent.ScriptParameters

import Mathlib.Logic.Function.Basic
import NodeLink.Server.Operators

/-!
# Administering operators

The requests of `api/auth.py` that change a role, disable an operator or take
platform admin away, and the ones of `api/admin_sessions.py` that provision and
disable break-glass identities. A request reads its target without a lock, may
count and lock the administrators there are, and writes one operator when it
commits. Another request that holds the row makes it wait.
-/

namespace NodeLink.Server.OperatorAdministration

open NodeLink.Server

/-- `BreakGlassAccount` -/
structure BreakGlassAccount where
  disabled : Bool := false
  deriving DecidableEq, Repr

/-- The columns of `Operator` that matter here, with its break-glass account
when it has one. -/
structure OperatorRow where
  role : OperatorRole
  disabled : Bool := false
  isPlatformAdmin : Bool := false
  breakGlass : Option BreakGlassAccount := none
  deriving DecidableEq, Repr

def OperatorRow.activeAdmin (o : OperatorRow) : Bool :=
  decide (o.role = .admin) && !o.disabled

def OperatorRow.activePlatformAdmin (o : OperatorRow) : Bool :=
  o.isPlatformAdmin && !o.disabled

/-! ## Requests -/

inductive Request where
  /-- `change_operator_role` -/
  | changeOperatorRole (target : String) (role : OperatorRole)
  /-- `change_operator_disabled_state` -/
  | changeOperatorDisabledState (target : String) (disabled : Bool)
  /-- `change_platform_admin` -/
  | changePlatformAdmin (target : String) (isPlatformAdmin : Bool)
  /-- `set_break_glass_disabled`, by the operator of the account. -/
  | setBreakGlassDisabled (target : String) (disabled : Bool)
  deriving DecidableEq, Repr

def Request.target : Request → String
  | .changeOperatorRole target _ => target
  | .changeOperatorDisabledState target _ => target
  | .changePlatformAdmin target _ => target
  | .setBreakGlassDisabled target _ => target

/-- `require_role(OperatorRole.admin)` or `require_platform_admin` -/
def Request.allows (caller : OperatorRow) : Request → Bool
  | .changeOperatorRole _ _ => caller.activeAdmin
  | .changeOperatorDisabledState _ _ => caller.activeAdmin
  | .changePlatformAdmin _ _ => caller.activePlatformAdmin
  | .setBreakGlassDisabled _ _ => caller.activePlatformAdmin

/-- Refused for the target as it was read: nothing to change, or no account. -/
def Request.refused (target : OperatorRow) : Request → Bool
  | .changeOperatorRole _ role => decide (target.role = role)
  | .changeOperatorDisabledState _ disabled =>
    decide (target.disabled = disabled)
  | .changePlatformAdmin _ isPlatformAdmin =>
    decide (target.isPlatformAdmin = isPlatformAdmin)
  | .setBreakGlassDisabled _ disabled =>
    match target.breakGlass with
    | none => true
    | some account => decide (account.disabled = disabled)

/-- What `SELECT ... FOR UPDATE` goes over. -/
inductive Counted where
  | activeAdmins
  | platformAdmins
  deriving DecidableEq, Repr

def Counted.counts : Counted → OperatorRow → Bool
  | .activeAdmins => OperatorRow.activeAdmin
  | .platformAdmins => OperatorRow.activePlatformAdmin

/-- Are there enough of them to let `target` go? -/
def Counted.enough (target : String) (ids : List String) : Counted → Bool
  | .activeAdmins => decide (1 < ids.length)
  | .platformAdmins => ids.any fun id => decide (id ≠ target)

/-- `_require_another_active_admin` -/
def requireAnotherActiveAdmin (target : OperatorRow) : Option Counted :=
  if target.activeAdmin then some .activeAdmins else none

/-- What a request counts before it writes, by the target as it was read. -/
def Request.check (target : OperatorRow) : Request → Option Counted
  | .changeOperatorRole _ role =>
    if role = .admin then none else requireAnotherActiveAdmin target
  | .changeOperatorDisabledState _ disabled =>
    if disabled then requireAnotherActiveAdmin target else none
  | .changePlatformAdmin _ isPlatformAdmin =>
    if isPlatformAdmin then none else some .platformAdmins
  | .setBreakGlassDisabled _ _ => none

/-- The columns a request writes. `set_disabled` assigns `operator.disabled`,
which is no write when it was so already where it was read. -/
def Request.edit (read row : OperatorRow) : Request → OperatorRow
  | .changeOperatorRole _ role => { row with role }
  | .changeOperatorDisabledState _ disabled => { row with disabled }
  | .changePlatformAdmin _ isPlatformAdmin => { row with isPlatformAdmin }
  | .setBreakGlassDisabled _ disabled =>
    { row with
      breakGlass := row.breakGlass.map fun _ => ⟨disabled⟩
      disabled := if read.disabled = disabled then row.disabled else disabled }

/-! ## Transactions side by side -/

/-- A request under way: its target as it was read, what it has still to count
and the rows it has locked. -/
structure Txn where
  request : Request
  read : OperatorRow
  due : Option Counted
  held : List String := []
  deriving DecidableEq, Repr

structure State where
  operators : String → Option OperatorRow
  txns : List (Nat × Txn) := []

def State.txn (s : State) (t : Nat) : Option Txn :=
  (s.txns.find? fun x => decide (x.1 = t)).map (·.2)

def State.close (s : State) (t : Nat) : State :=
  { s with txns := s.txns.filter fun x => decide (x.1 ≠ t) }

def State.put (s : State) (t : Nat) (x : Txn) : State :=
  { s with txns := (t, x) :: (s.close t).txns }

def State.heldByOther (s : State) (t : Nat) (id : String) : Bool :=
  s.txns.any fun x => decide (x.1 ≠ t) && decide (id ∈ x.2.held)

inductive Action where
  | begin (t : Nat) (caller : String) (request : Request)
  /-- The locking count returns: every row it names qualifies when its lock is
  had. A row that came to qualify after the statement began may be missing. -/
  | count (t : Nat) (ids : List String)
  | commit (t : Nat)
  | abort (t : Nat)
  /-- `create_operator` -/
  | createOperator (id : String) (role : OperatorRole)
  /-- `create_account` -/
  | createBreakGlassAccount (id : String)
  deriving DecidableEq, Repr

def qualifies (s : State) (counted : Counted) (id : String) : Bool :=
  match s.operators id with
  | some row => counted.counts row
  | none => false

def begins (s : State) (t : Nat) (caller : String) (request : Request) : Bool :=
  match s.operators caller, s.operators request.target with
  | some callerRow, some target =>
    (s.txn t).isNone && request.allows callerRow && !request.refused target
  | _, _ => false

def enabled (s : State) : Action → Bool
  | .begin t caller request => begins s t caller request
  | .count t ids =>
    match s.txn t with
    | some x =>
      match x.due with
      | some counted =>
        decide ids.Nodup && ids.all (qualifies s counted) &&
          ids.all (fun id => !s.heldByOther t id) &&
          counted.enough x.request.target ids
      | none => false
    | none => false
  | .commit t =>
    match s.txn t with
    | some x => decide (x.due = none) && !s.heldByOther t x.request.target
    | none => false
  | .abort t => (s.txn t).isSome
  | .createOperator id _ => (s.operators id).isNone
  | .createBreakGlassAccount id => (s.operators id).isNone

def State.write (s : State) (id : String) (row : OperatorRow) : State :=
  { s with operators := Function.update s.operators id (some row) }

def next (s : State) : Action → State
  | .begin t _ request =>
    match s.operators request.target with
    | some target => s.put t ⟨request, target, request.check target, []⟩
    | none => s
  | .count t ids =>
    match s.txn t with
    | some x =>
      s.put t { x with
        due := none
        held := ids }
    | none => s
  | .commit t =>
    match s.txn t with
    | some x =>
      match s.operators x.request.target with
      | some row =>
        (s.close t).write x.request.target (x.request.edit x.read row)
      | none => s.close t
    | none => s
  | .abort t => s.close t
  | .createOperator id role => s.write id { role }
  | .createBreakGlassAccount id =>
    s.write id
      { role := .admin
        isPlatformAdmin := true
        breakGlass := some {} }

/-- Any number of actions, each where it is enabled. -/
def runs (s : State) : List Action → Bool
  | [] => true
  | a :: actions => enabled s a && runs (next s a) actions

def run (s : State) (actions : List Action) : State := actions.foldl next s

end NodeLink.Server.OperatorAdministration

import NodeLink.Lib.Prog
import NodeLink.Server.OperatorAdministration

/-!
# The last administrators

A request that lets an administrator go counts the others and locks them, and
what is locked stands until it commits. But the count takes a break-glass
identity for an administrator, a target that was read as no administrator is
not counted for at all, and nothing counts platform admins when one is
disabled. Runs that stay clear of these three keep an ordinary administrator
and a platform admin.
-/

namespace NodeLink.Proofs.LastAdministrators

open Lib Server.OperatorAdministration

variable {s : State}

def ordinaryAdmin (o : OperatorRow) : Bool :=
  o.activeAdmin && o.breakGlass.isNone

/-- Somebody can administer operators day to day, and somebody is a platform
admin. -/
structure Administered (s : State) : Prop where
  admin : ∃ id o, s.operators id = some o ∧ ordinaryAdmin o = true
  platform : ∃ id o, s.operators id = some o ∧ o.activePlatformAdmin = true

/-! ## What a write does to its row -/

section Edit

variable {request : Request} {read row : OperatorRow}

theorem breakGlass_edit :
    (request.edit read row).breakGlass.isSome = row.breakGlass.isSome := by
  cases request with
  | changeOperatorRole target role => rfl
  | changeOperatorDisabledState target disabled => rfl
  | changePlatformAdmin target isPlatformAdmin => rfl
  | setBreakGlassDisabled target disabled => exact Option.isSome_map

/-- An ordinary request keeps an administrator, or it is one that has to
count. -/
theorem activeAdmin_edit (hbreakGlass : row.breakGlass = none)
    (hrequest : ∀ id d, request = .setBreakGlassDisabled id d →
      row.breakGlass.isSome = true) (h : row.activeAdmin = true) :
    (request.edit read row).activeAdmin = true ∨
      request.check row = some .activeAdmins := by
  have hcheck : requireAnotherActiveAdmin row = some .activeAdmins := if_pos h
  have hparts := h
  rw [OperatorRow.activeAdmin, Bool.and_eq_true, decide_eq_true_iff] at hparts
  cases request with
  | changeOperatorRole target role =>
      by_cases hrole : role = .admin
      · left
        rw [Request.edit, OperatorRow.activeAdmin, Bool.and_eq_true,
          decide_eq_true_iff]
        exact ⟨hrole, hparts.2⟩
      · right
        rw [Request.check, if_neg hrole, hcheck]
  | changeOperatorDisabledState target disabled =>
      cases disabled with
      | false =>
          left
          rw [Request.edit, OperatorRow.activeAdmin, Bool.and_eq_true,
            decide_eq_true_iff]
          exact ⟨hparts.1, rfl⟩
      | true =>
          right
          rw [Request.check, if_pos rfl, hcheck]
  | changePlatformAdmin target isPlatformAdmin => exact .inl h
  | setBreakGlassDisabled target disabled =>
      have hsome := hrequest target disabled rfl
      rw [hbreakGlass] at hsome
      cases hsome

/-- A platform admin stays one, or is disabled, or has to be counted for. -/
theorem activePlatformAdmin_edit (h : row.activePlatformAdmin = true) :
    (request.edit read row).activePlatformAdmin = true ∨
      (request.edit read row).disabled = true ∨
      request.check read = some .platformAdmins := by
  rw [OperatorRow.activePlatformAdmin, Bool.and_eq_true] at h
  cases hdisabled : (request.edit read row).disabled with
  | true => exact .inr (.inl rfl)
  | false =>
      cases hplatform : (request.edit read row).isPlatformAdmin with
      | true =>
          left
          rw [OperatorRow.activePlatformAdmin, hplatform, hdisabled]
          rfl
      | false =>
          right
          right
          cases request with
          | changeOperatorRole target role =>
              exact absurd (h.1.symm.trans hplatform) (by decide)
          | changeOperatorDisabledState target disabled =>
              exact absurd (h.1.symm.trans hplatform) (by decide)
          | changePlatformAdmin target isPlatformAdmin =>
              have hfalse : isPlatformAdmin = false := hplatform
              rw [Request.check, hfalse, if_neg Bool.false_ne_true]
          | setBreakGlassDisabled target disabled =>
              exact absurd (h.1.symm.trans hplatform) (by decide)

end Edit

/-! ## What a request under way may rely on -/

/-- The target is there, with its account when the request is about that; what
is to be counted is what the request asks for; and what was counted left
somebody else, who stands as counted. -/
structure Sound (s : State) (x : Txn) : Prop where
  target : ∃ row, s.operators x.request.target = some row ∧
    ∀ id d, x.request = .setBreakGlassDisabled id d →
      row.breakGlass.isSome = true
  asked : ∀ counted, x.due = some counted →
    x.request.check x.read = some counted
  counted : x.due = none → ∀ counted,
    x.request.check x.read = some counted →
    ∃ id ∈ x.held, id ≠ x.request.target ∧ ∃ o, s.operators id = some o ∧
      counted.counts o = true ∧
      (counted = .activeAdmins → o.breakGlass = none)

def AllSound (s : State) : Prop := ∀ t x, (t, x) ∈ s.txns → Sound s x

theorem mem_of_txn {t : Nat} {x : Txn} (h : s.txn t = some x) :
    (t, x) ∈ s.txns := by
  obtain ⟨⟨u, y⟩, hfind, hxy⟩ := Option.map_eq_some_iff.mp h
  have hut : u = t := of_decide_eq_true
    (List.find?_some (p := fun q : Nat × Txn => decide (q.1 = t)) hfind)
  have hmem := List.mem_of_find?_eq_some hfind
  rw [hut] at hmem
  rw [← hxy]
  exact hmem

theorem mem_close {t u : Nat} {x : Txn} (h : (u, x) ∈ (s.close t).txns) :
    (u, x) ∈ s.txns ∧ u ≠ t := by
  obtain ⟨hmem, hne⟩ := List.mem_filter.mp h
  exact ⟨hmem, of_decide_eq_true hne⟩

theorem Sound.of_operators {s' : State} {x : Txn} (h : Sound s x)
    (heq : s'.operators = s.operators) : Sound s' x := by
  obtain ⟨htarget, hasked, hcounted⟩ := h
  rw [← heq] at htarget hcounted
  exact ⟨htarget, hasked, hcounted⟩

theorem AllSound.close (h : AllSound s) (t : Nat) : AllSound (s.close t) :=
  fun u x hx => (h u x (mem_close hx).1).of_operators rfl

theorem AllSound.put (h : AllSound s) {t : Nat} {x : Txn} (hx : Sound s x) :
    AllSound (s.put t x) := by
  intro u y hy
  rcases List.mem_cons.mp hy with heq | hmem
  · cases heq
    exact hx.of_operators rfl
  · exact ((h.close t) u y hmem).of_operators rfl

/-- A write to a row that `x` does not hold. -/
theorem Sound.write {x : Txn} (h : Sound s x) {id : String} {row : OperatorRow}
    (hheld : id ∉ x.held)
    (hkeeps : ∀ old, s.operators id = some old →
      row.breakGlass.isSome = old.breakGlass.isSome) :
    Sound (s.write id row) x where
  target := by
    obtain ⟨old, hold, hbreakGlass⟩ := h.target
    show ∃ row', Function.update s.operators id (some row) x.request.target =
      some row' ∧ _
    by_cases heq : x.request.target = id
    · rw [heq] at hold ⊢
      rw [Function.update_self]
      refine ⟨row, rfl, fun i d hrequest => ?_⟩
      rw [hkeeps old hold]
      exact hbreakGlass i d hrequest
    · rw [Function.update_of_ne heq]
      exact ⟨old, hold, hbreakGlass⟩
  asked := h.asked
  counted hdue counted hcheck := by
    obtain ⟨other, hother, hne, o, ho, hcounts⟩ := h.counted hdue counted hcheck
    have hid : other ≠ id := by
      rintro rfl
      exact hheld hother
    refine ⟨other, hother, hne, o, ?_, hcounts⟩
    show Function.update s.operators id (some row) other = some o
    rw [Function.update_of_ne hid]
    exact ho

/-! ## Runs that stay clear -/

/-- Another operator is a platform admin. -/
def AnotherPlatformAdmin (s : State) (id : String) : Prop :=
  ∃ other o, other ≠ id ∧ s.operators other = some o ∧
    o.activePlatformAdmin = true

/-- The administrators a request counts are not only break-glass identities
besides its target; a target that was not counted for does not have to be when
the write is made; and a platform admin who is disabled is not the last. -/
def Clear (s : State) : Action → Prop
  | .count t ids =>
    ∀ x, s.txn t = some x → x.due = some .activeAdmins →
      ∃ id ∈ ids, id ≠ x.request.target ∧
        ∃ o, s.operators id = some o ∧ o.breakGlass = none
  | .commit t =>
    ∀ x row, s.txn t = some x → s.operators x.request.target = some row →
      (x.request.check row = some .activeAdmins →
        x.request.check x.read = some .activeAdmins) ∧
      (row.activePlatformAdmin = true →
        (x.request.edit x.read row).disabled = true →
        AnotherPlatformAdmin s x.request.target)
  | _ => True

def EachClear (s : State) : List Action → Prop
  | [] => True
  | a :: actions => Clear s a ∧ EachClear (next s a) actions

theorem Administered.of_operators {s' : State} (h : Administered s)
    (heq : s'.operators = s.operators) : Administered s' := by
  obtain ⟨hadmin, hplatform⟩ := h
  rw [← heq] at hadmin hplatform
  exact ⟨hadmin, hplatform⟩

/-- A new operator takes nobody's place. -/
theorem Administered.create (h : Administered s) {id : String}
    (hnew : s.operators id = none) (row : OperatorRow) :
    Administered (s.write id row) := by
  have hstands : ∀ other o, s.operators other = some o →
      (s.write id row).operators other = some o := by
    intro other o ho
    show Function.update s.operators id (some row) other = some o
    rw [Function.update_of_ne, ho]
    rintro rfl
    rw [hnew] at ho
    cases ho
  obtain ⟨a, oa, ha, hadmin⟩ := h.admin
  obtain ⟨p, op, hp, hplatform⟩ := h.platform
  exact ⟨⟨a, oa, hstands a oa ha, hadmin⟩, ⟨p, op, hstands p op hp, hplatform⟩⟩

/-- The write of a request that is sound and clear. -/
theorem Administered.commit (h : Administered s) {t : Nat} {x : Txn}
    {row : OperatorRow} (hx : s.txn t = some x) (hsound : Sound s x)
    (hdue : x.due = none) (hrow : s.operators x.request.target = some row)
    (hclear : Clear s (.commit t)) :
    Administered
      ((s.close t).write x.request.target (x.request.edit x.read row)) := by
  obtain ⟨hfresh, hlast⟩ := hclear x row hx hrow
  have hself : ((s.close t).write x.request.target
      (x.request.edit x.read row)).operators x.request.target =
      some (x.request.edit x.read row) := Function.update_self _ _ _
  have hstands : ∀ other o, other ≠ x.request.target →
      s.operators other = some o → ((s.close t).write x.request.target
        (x.request.edit x.read row)).operators other = some o := by
    intro other o hne ho
    show Function.update s.operators x.request.target _ other = some o
    rw [Function.update_of_ne hne]
    exact ho
  constructor
  · obtain ⟨a, o, ha, hadmin⟩ := h.admin
    by_cases heq : a = x.request.target
    · rw [heq, hrow] at ha
      cases ha
      rw [ordinaryAdmin, Bool.and_eq_true, Option.isNone_iff_eq_none] at hadmin
      obtain ⟨row', hrow', hbreakGlass⟩ := hsound.target
      rw [hrow] at hrow'
      cases hrow'
      rcases @activeAdmin_edit x.request x.read _ hadmin.2 hbreakGlass
        hadmin.1 with hkept | hcheck
      · refine ⟨_, _, hself, ?_⟩
        have hnone : (x.request.edit x.read row).breakGlass.isSome = false := by
          rw [breakGlass_edit, hadmin.2]
          rfl
        rw [ordinaryAdmin, hkept, ← Option.not_isSome, hnone]
        rfl
      · obtain ⟨other, _, hne, o, ho, hcounts, hordinary⟩ :=
          hsound.counted hdue .activeAdmins (hfresh hcheck)
        refine ⟨other, o, hstands other o hne ho, ?_⟩
        have hactive : o.activeAdmin = true := hcounts
        rw [ordinaryAdmin, hactive, hordinary rfl]
        rfl
    · exact ⟨a, o, hstands a o heq ha, hadmin⟩
  · obtain ⟨p, o, hp, hplatform⟩ := h.platform
    by_cases heq : p = x.request.target
    · rw [heq, hrow] at hp
      cases hp
      rcases @activePlatformAdmin_edit x.request x.read _
        hplatform with hkept | hdisabled | hcheck
      · exact ⟨_, _, hself, hkept⟩
      · obtain ⟨other, o, hne, ho, hactive⟩ := hlast hplatform hdisabled
        exact ⟨other, o, hstands other o hne ho, hactive⟩
      · obtain ⟨other, _, hne, o, ho, hcounts, _⟩ :=
          hsound.counted hdue .platformAdmins hcheck
        exact ⟨other, o, hstands other o hne ho, hcounts⟩
    · exact ⟨p, o, hstands p o heq hp, hplatform⟩

/-! ## One action -/

theorem sound_begin {t : Nat} {caller : String} {request : Request}
    {target : OperatorRow} (hbegins : begins s t caller request = true)
    (htarget : s.operators request.target = some target) :
    Sound s ⟨request, target, request.check target, []⟩ where
  target := by
    refine ⟨target, htarget, fun id d hrequest => ?_⟩
    simp only at hrequest
    unfold begins at hbegins
    rw [htarget] at hbegins
    split at hbegins
    · next callerRow row _ hrow =>
        have hrefused := (Bool.and_eq_true _ _ ▸ hbegins).2
        rw [← Option.some.inj hrow, hrequest, Request.refused] at hrefused
        cases hbreakGlass : target.breakGlass with
        | none =>
            rw [hbreakGlass] at hrefused
            cases hrefused
        | some account => rfl
    · cases hbegins
  asked _ hdue := hdue
  counted hdue counted hcheck := by
    simp only at hdue hcheck
    rw [hdue] at hcheck
    cases hcheck

theorem sound_count {t : Nat} {ids : List String} {x : Txn}
    (hx : s.txn t = some x) (hsound : Sound s x)
    (henabled : enabled s (.count t ids) = true)
    (hclear : Clear s (.count t ids)) :
    Sound s { x with
      due := none
      held := ids } where
  target := hsound.target
  asked _ hdue := by cases hdue
  counted _ counted hcheck := by
    simp only [enabled, hx] at henabled
    split at henabled
    · next asked hasked =>
        have hsame : asked = counted :=
          Option.some.inj ((hsound.asked asked hasked).symm.trans hcheck)
        rw [hsame] at henabled hasked
        simp only [Bool.and_eq_true, List.all_eq_true] at henabled
        obtain ⟨⟨⟨_, hqualifies⟩, _⟩, henough⟩ := henabled
        have hrow : ∀ id ∈ ids, ∃ o, s.operators id = some o ∧
            counted.counts o = true := by
          intro id hid
          have hq := hqualifies id hid
          unfold qualifies at hq
          split at hq
          · next o ho => exact ⟨o, ho, hq⟩
          · cases hq
        cases counted with
        | activeAdmins =>
            obtain ⟨id, hid, hne, o, ho, hordinary⟩ := hclear x hx hasked
            obtain ⟨o', ho', hcounts⟩ := hrow id hid
            rw [ho] at ho'
            cases ho'
            exact ⟨id, hid, hne, o, ho, hcounts, fun _ => hordinary⟩
        | platformAdmins =>
            obtain ⟨id, hid, hne⟩ := List.any_eq_true.mp henough
            obtain ⟨o, ho, hcounts⟩ := hrow id hid
            exact ⟨id, hid, of_decide_eq_true hne, o, ho, hcounts,
              fun h => by cases h⟩
    · cases henabled

/-- Nobody else holds the row a commit writes. -/
theorem not_held {t u : Nat} {id : String} {x : Txn}
    (h : s.heldByOther t id = false) (hx : (u, x) ∈ s.txns) (hne : u ≠ t) :
    id ∉ x.held := by
  intro hheld
  have htrue : s.heldByOther t id = true := by
    refine List.any_eq_true.mpr ⟨(u, x), hx, ?_⟩
    rw [Bool.and_eq_true]
    exact ⟨decide_eq_true hne, decide_eq_true hheld⟩
  rw [h] at htrue
  cases htrue

theorem AllSound.write (h : AllSound s) {id : String} {row : OperatorRow}
    (hheld : ∀ t x, (t, x) ∈ s.txns → id ∉ x.held)
    (hkeeps : ∀ old, s.operators id = some old →
      row.breakGlass.isSome = old.breakGlass.isSome) :
    AllSound (s.write id row) :=
  fun t x hx => (h t x hx).write (hheld t x hx) hkeeps

/-- What is held is an operator. -/
theorem AllSound.create (h : AllSound s) {id : String}
    (hnew : s.operators id = none) (row : OperatorRow) :
    AllSound (s.write id row) := by
  intro t x hx
  obtain ⟨⟨target, htarget, hbreakGlass⟩, hasked, hcounted⟩ := h t x hx
  have hstands : ∀ other o, s.operators other = some o →
      (s.write id row).operators other = some o := by
    intro other o ho
    show Function.update s.operators id (some row) other = some o
    rw [Function.update_of_ne, ho]
    rintro rfl
    rw [hnew] at ho
    cases ho
  refine ⟨⟨target, hstands _ _ htarget, hbreakGlass⟩, hasked,
    fun hdue counted hcheck => ?_⟩
  obtain ⟨other, hother, hne, o, ho, hcounts⟩ := hcounted hdue counted hcheck
  exact ⟨other, hother, hne, o, hstands other o ho, hcounts⟩

/-- One clear action. -/
theorem next_administered {a : Action} (hsound : AllSound s)
    (h : Administered s) (henabled : enabled s a = true) (hclear : Clear s a) :
    AllSound (next s a) ∧ Administered (next s a) := by
  cases a with
  | begin t caller request =>
      rw [next]
      split
      · next target htarget =>
          exact ⟨hsound.put (sound_begin henabled htarget), h.of_operators rfl⟩
      · exact ⟨hsound, h⟩
  | count t ids =>
      rw [next]
      split
      · next x hx =>
          have hx' := hsound t x (mem_of_txn hx)
          exact ⟨hsound.put (sound_count hx hx' henabled hclear),
            h.of_operators rfl⟩
      · exact ⟨hsound, h⟩
  | commit t =>
      rw [next]
      split
      · next x hx =>
          have hx' := hsound t x (mem_of_txn hx)
          simp only [enabled, hx, Bool.and_eq_true, Bool.not_eq_true',
            decide_eq_true_iff] at henabled
          obtain ⟨hdue, hfree⟩ := henabled
          split
          · next row hrow =>
              refine ⟨(hsound.close t).write ?_ ?_,
                h.commit hx hx' hdue hrow hclear⟩
              · intro u y hy
                obtain ⟨hmem, hne⟩ := mem_close hy
                exact not_held hfree hmem hne
              · intro old hold
                have hsame : row = old := Option.some.inj (hrow.symm.trans hold)
                rw [breakGlass_edit, hsame]
          · exact ⟨hsound.close t, h.of_operators rfl⟩
      · exact ⟨hsound, h⟩
  | abort t => exact ⟨hsound.close t, h.of_operators rfl⟩
  | createOperator id role =>
      have hnew := Option.isNone_iff_eq_none.mp henabled
      exact ⟨hsound.create hnew _, h.create hnew _⟩
  | createBreakGlassAccount id =>
      have hnew := Option.isNone_iff_eq_none.mp henabled
      exact ⟨hsound.create hnew _, h.create hnew _⟩

/-- In every run that stays clear, from a state that is administered and where
nothing is under way, every state is administered. -/
theorem administered_while (h : Administered s) (hidle : s.txns = [])
    {actions : List Action} (hruns : runs s actions = true)
    (hclear : EachClear s actions) : Administered (run s actions) := by
  have hsound : AllSound s := by
    intro t x hx
    rw [hidle] at hx
    exact absurd hx List.not_mem_nil
  clear hidle
  induction actions generalizing s with
  | nil => exact h
  | cons a actions ih =>
      rw [runs, Bool.and_eq_true] at hruns
      obtain ⟨hsound', h'⟩ := next_administered hsound h hruns.1 hclear.1
      exact ih h' hruns.2 hclear.2 hsound'

/-! ## Three ways to be locked out -/

/-- Who an action adds. -/
def created : Action → Option String
  | .createOperator id _ => some id
  | .createBreakGlassAccount id => some id
  | _ => none

theorem next_absent {a : Action} {id : String} (h : s.operators id = none)
    (ha : created a ≠ some id) : (next s a).operators id = none := by
  have hwrite : ∀ (other : String) (row : OperatorRow) (s' : State),
      s'.operators = s.operators → id ≠ other →
        (s'.write other row).operators id = none := by
    intro other row s' heq hne
    show Function.update s'.operators other (some row) id = none
    rw [Function.update_of_ne hne, heq]
    exact h
  cases a with
  | begin t caller request =>
      rw [next]
      split
      · exact h
      · exact h
  | count t ids =>
      rw [next]
      split
      · exact h
      · exact h
  | commit t =>
      rw [next]
      split
      · next x hx =>
          split
          · next row hrow =>
              refine hwrite _ _ _ rfl ?_
              rintro rfl
              rw [h] at hrow
              cases hrow
          · exact h
      · exact h
  | abort t => exact h
  | createOperator other role =>
      exact hwrite _ _ _ rfl fun heq => ha (congrArg some heq.symm)
  | createBreakGlassAccount other =>
      exact hwrite _ _ _ rfl fun heq => ha (congrArg some heq.symm)

theorem run_absent {actions : List Action} {id : String}
    (h : s.operators id = none) (ha : ∀ a ∈ actions, created a ≠ some id) :
    (run s actions).operators id = none := by
  induction actions generalizing s with
  | nil => exact h
  | cons a actions ih =>
      exact ih (next_absent h (ha a List.mem_cons_self))
        fun b hb => ha b (List.mem_cons_of_mem _ hb)

/-- Two people: an administrator who is a platform admin, and somebody. -/
def twoOperators (other : OperatorRow) : State where
  operators := fun id =>
    if id = "a" then
      some
        { role := .admin
          isPlatformAdmin := true }
    else if id = "b" then some other
    else none

theorem twoOperators_administered (other : OperatorRow) :
    Administered (twoOperators other) :=
  ⟨⟨"a", _, rfl, rfl⟩, ⟨"a", _, rfl, rfl⟩⟩

/-- Whoever is there after a run among the two. -/
theorem twoOperators_run {other o : OperatorRow} {actions : List Action}
    (hactions : actions.all fun a => decide (created a = none)) {id : String}
    (h : (run (twoOperators other) actions).operators id = some o) :
    id = "a" ∨ id = "b" := by
  by_contra hid
  rw [not_or] at hid
  have hnone : (twoOperators other).operators id = none := by
    rw [twoOperators]
    simp only [hid.1, hid.2, if_false]
  rw [run_absent hnone] at h
  · cases h
  · intro a ha hcreated
    have hnot := of_decide_eq_true (List.all_eq_true.mp hactions a ha)
    rw [hnot] at hcreated
    cases hcreated

/-- The only platform admin is disabled, by an administrator. -/
def disablesPlatformAdmin : List Action :=
  [.begin 0 "b" (.changeOperatorDisabledState "a" true), .count 0 ["a", "b"],
    .commit 0]

/-- The only ordinary administrator steps down: there is a break-glass
identity. -/
def leavesBreakGlass : List Action :=
  [.begin 0 "a" (.changeOperatorRole "a" .operator), .count 0 ["a", "b"],
    .commit 0]

/-- `b` is read as no administrator, and disabled when it is the last. -/
def disablesStale : List Action :=
  [.begin 0 "a" (.changeOperatorDisabledState "b" true),
    .begin 1 "a" (.changeOperatorRole "b" .admin), .commit 1,
    .begin 2 "b" (.changeOperatorRole "a" .operator), .count 2 ["a", "b"],
    .commit 2, .commit 0]

def breakGlassOperator : OperatorRow where
  role := .admin
  isPlatformAdmin := true
  breakGlass := some {}

/-- A second administrator takes the platform role from the first, and then
demotes the first. -/
def handsOver : List Action :=
  [.begin 0 "a" (.changePlatformAdmin "b" true), .commit 0,
    .begin 1 "b" (.changePlatformAdmin "a" false), .count 1 ["a", "b"],
    .commit 1, .begin 2 "b" (.changeOperatorRole "a" .operator),
    .count 2 ["a", "b"], .commit 2]

theorem administered_while_handsOver :
    Administered (run (twoOperators { role := .admin }) handsOver) := by
  refine administered_while (twoOperators_administered _) rfl (by decide +kernel)
    ⟨trivial, ?_, trivial, ?_, ?_, trivial, ?_, ?_, trivial⟩
  · intro x row hx hrow
    cases hx
    cases hrow
    exact ⟨(fun h => by cases h), (fun h => by cases h)⟩
  · intro x hx hdue
    cases hx
    cases hdue
  · intro x row hx hrow
    cases hx
    cases hrow
    exact ⟨(fun h => by cases h), (fun _ h => by cases h)⟩
  · intro x hx _
    cases hx
    exact ⟨"b", by decide, by decide, _, rfl, rfl⟩
  · intro x row hx hrow
    cases hx
    cases hrow
    exact ⟨fun _ => rfl, fun h => by cases h⟩

/-- Nobody is left, though each action of the run is allowed. -/
def LockedOut (s : State) (actions : List Action) : Prop :=
  Administered s ∧ s.txns = [] ∧ runs s actions = true ∧
    ¬ Administered (run s actions)

theorem administration_locked_out :
    LockedOut (twoOperators { role := .admin }) disablesPlatformAdmin ∧
      LockedOut (twoOperators breakGlassOperator) leavesBreakGlass ∧
      LockedOut (twoOperators { role := .operator }) disablesStale := by
  refine ⟨⟨twoOperators_administered _, rfl, by decide +kernel, fun h => ?_⟩,
    ⟨twoOperators_administered _, rfl, by decide +kernel, fun h => ?_⟩,
    twoOperators_administered _, rfl, by decide +kernel, fun h => ?_⟩
  · obtain ⟨id, o, ho, hplatform⟩ := h.platform
    rcases twoOperators_run (by decide) ho with rfl | rfl
    · cases ho
      cases hplatform
    · cases ho
      cases hplatform
  · obtain ⟨id, o, ho, hadmin⟩ := h.admin
    rcases twoOperators_run (by decide) ho with rfl | rfl
    · cases ho
      cases hadmin
    · cases ho
      cases hadmin
  · obtain ⟨id, o, ho, hadmin⟩ := h.admin
    rcases twoOperators_run (by decide) ho with rfl | rfl
    · cases ho
      cases hadmin
    · cases ho
      cases hadmin

end NodeLink.Proofs.LastAdministrators

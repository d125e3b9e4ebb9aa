import Mathlib.Logic.Function.Basic
import Mathlib.Logic.Relation

/-!
# Rows under concurrent transactions

A table of rows that transactions read and, later, write. A transaction keeps
the rows as it read them and writes some of their columns when it commits: an
edit of the row as it stands then, by its key. A row may be held from the
moment it is read, which keeps every other transaction from writing it or
holding it; a write may carry a guard, which is evaluated on the row as it
stands at the commit. A write that is neither held nor guarded is a lost
update waiting to happen. What a commit inserts besides is a list of records.
-/

namespace NodeLink.Lib

/-- A change to one row: the row as it was read, the condition beyond the key,
and the columns that are written. -/
structure RowWrite (K R : Type) where
  key : K
  read : R
  guard : R → Bool
  edit : R → R

/-- What a transaction has read, holds and is going to write. -/
structure RowTxn (K R I : Type) where
  held : List K := []
  writes : List (RowWrite K R) := []
  inserts : List I := []

namespace RowTxn

variable {K R I : Type}

def append (a b : RowTxn K R I) : RowTxn K R I where
  held := a.held ++ b.held
  writes := a.writes ++ b.writes
  inserts := a.inserts ++ b.inserts

end RowTxn

/-- The committed rows and records, and the transactions under way. -/
structure RowStore (K R I : Type) where
  table : K → Option R
  inserted : List I
  txns : Nat → RowTxn K R I

namespace RowStore

variable {K R I : Type}

/-- Another transaction than `t` holds the row. -/
def HeldByOther (s : RowStore K R I) (t : Nat) (k : K) : Prop :=
  ∃ u, u ≠ t ∧ k ∈ (s.txns u).held

/-- Transaction `t` may read what `more` says: the rows are as they stand, and
the ones to hold are free and were not read before. -/
structure Reads (s : RowStore K R I) (t : Nat) (more : RowTxn K R I) :
    Prop where
  current : ∀ w ∈ more.writes, s.table w.key = some w.read
  free : ∀ k ∈ more.held, ¬ s.HeldByOther t k
  first : ∀ w ∈ (s.txns t).writes, w.key ∉ more.held

def setTxn (s : RowStore K R I) (t : Nat) (txn : RowTxn K R I) :
    RowStore K R I :=
  { s with txns := Function.update s.txns t txn }

def read (s : RowStore K R I) (t : Nat) (more : RowTxn K R I) :
    RowStore K R I := s.setTxn t ((s.txns t).append more)

/-- Transaction `t` may commit: no row it writes is held by another, and the
guards hold of the rows as they stand. -/
structure Commits (s : RowStore K R I) (t : Nat) : Prop where
  free : ∀ w ∈ (s.txns t).writes, ¬ s.HeldByOther t w.key
  guarded : ∀ w ∈ (s.txns t).writes, ∀ r, s.table w.key = some r →
    w.guard r = true

/-- A transaction that is rolled back. -/
def abort (s : RowStore K R I) (t : Nat) : RowStore K R I := s.setTxn t {}

/-! ## Held rows stand still -/

/-- A row is held by one transaction at most, and stands as that one read
it. -/
structure Held (s : RowStore K R I) : Prop where
  once : ∀ t k, k ∈ (s.txns t).held → ¬ s.HeldByOther t k
  fresh : ∀ t, ∀ w ∈ (s.txns t).writes, w.key ∈ (s.txns t).held →
    s.table w.key = some w.read

variable {s : RowStore K R I} {t : Nat}

@[simp] theorem setTxn_table (txn : RowTxn K R I) :
    (s.setTxn t txn).table = s.table := rfl

@[simp] theorem setTxn_inserted (txn : RowTxn K R I) :
    (s.setTxn t txn).inserted = s.inserted := rfl

@[simp] theorem setTxn_self (txn : RowTxn K R I) :
    (s.setTxn t txn).txns t = txn := by simp [setTxn]

@[simp] theorem setTxn_ne {u : Nat} (h : u ≠ t) (txn : RowTxn K R I) :
    (s.setTxn t txn).txns u = s.txns u := by simp [setTxn, h]

theorem Held.read (h : s.Held) {more : RowTxn K R I} (hr : s.Reads t more) :
    (s.read t more).Held := by
  have hmine : ((s.read t more).txns t) = (s.txns t).append more :=
    setTxn_self _
  have hother : ∀ u, u ≠ t → (s.read t more).txns u = s.txns u :=
    fun u hu => setTxn_ne hu _
  constructor
  · intro v k hk ⟨u, huv, hku⟩
    by_cases hv : v = t
    · rw [hv] at hk huv
      rw [hmine, RowTxn.append, List.mem_append] at hk
      rw [hother u huv] at hku
      rcases hk with hold | hnew
      · exact h.once t k hold ⟨u, huv, hku⟩
      · exact hr.free k hnew ⟨u, huv, hku⟩
    · rw [hother v hv] at hk
      by_cases hu : u = t
      · rw [hu] at hku huv
        rw [hmine, RowTxn.append, List.mem_append] at hku
        rcases hku with hold | hnew
        · exact h.once v k hk ⟨t, huv, hold⟩
        · exact hr.free k hnew ⟨v, hv, hk⟩
      · rw [hother u hu] at hku
        exact h.once v k hk ⟨u, huv, hku⟩
  · intro v w hw hheld
    show s.table w.key = some w.read
    by_cases hv : v = t
    · rw [hv, hmine] at hw hheld
      rcases List.mem_append.mp hw with hold | hnew
      · rcases List.mem_append.mp hheld with hold' | hnew'
        · exact h.fresh t w hold hold'
        · exact absurd hnew' (hr.first w hold)
      · exact hr.current w hnew
    · rw [hother v hv] at hw hheld
      exact h.fresh v w hw hheld

theorem Held.abort (h : s.Held) : (s.abort t).Held := by
  have hmine : (s.abort t).txns t = {} := setTxn_self _
  have hother : ∀ u, u ≠ t → (s.abort t).txns u = s.txns u :=
    fun u hu => setTxn_ne hu _
  constructor
  · intro v k hk ⟨u, huv, hku⟩
    by_cases hv : v = t
    · rw [hv, hmine] at hk
      exact absurd hk List.not_mem_nil
    · by_cases hu : u = t
      · rw [hu, hmine] at hku
        exact absurd hku List.not_mem_nil
      · rw [hother v hv] at hk
        rw [hother u hu] at hku
        exact h.once v k hk ⟨u, huv, hku⟩
  · intro v w hw hheld
    by_cases hv : v = t
    · rw [hv, hmine] at hw
      exact absurd hw List.not_mem_nil
    · rw [hother v hv] at hw hheld
      exact h.fresh v w hw hheld

/-! ## Commits -/

variable [DecidableEq K]

/-- The table after some writes. -/
def written (writes : List (RowWrite K R)) (table : K → Option R) (k : K) :
    Option R :=
  match writes.find? fun w => decide (w.key = k) with
  | some w => (table k).map w.edit
  | none => table k

def commit (s : RowStore K R I) (t : Nat) : RowStore K R I where
  table := written (s.txns t).writes s.table
  inserted := s.inserted ++ (s.txns t).inserts
  txns := Function.update s.txns t {}

/-- A new row. -/
def create (s : RowStore K R I) (k : K) (r : R) : RowStore K R I :=
  { s with table := Function.update s.table k (some r) }

theorem find_key {writes : List (RowWrite K R)} {k : K} {w : RowWrite K R}
    (h : writes.find? (fun w => decide (w.key = k)) = some w) :
    w ∈ writes ∧ w.key = k := by
  have hkey := List.find?_some h
  exact ⟨List.mem_of_find?_eq_some h, of_decide_eq_true hkey⟩

theorem written_eq_some {writes : List (RowWrite K R)} {table : K → Option R}
    {k : K} {r' : R} (h : written writes table k = some r') :
    (∃ w ∈ writes, w.key = k ∧ ∃ r, table k = some r ∧ r' = w.edit r) ∨
      table k = some r' := by
  rw [written] at h
  split at h
  · next w hw =>
      obtain ⟨r, hr, hedit⟩ := Option.map_eq_some_iff.mp h
      exact .inl ⟨w, (find_key hw).1, (find_key hw).2, r, hr, hedit.symm⟩
  · exact .inr h

/-- What no write changes of a row stays. -/
theorem written_keeps {A : Type} {f : R → A} {writes : List (RowWrite K R)}
    {table : K → Option R} {k : K} {r : R} (hr : table k = some r)
    (h : ∀ w ∈ writes, w.key = k → f (w.edit r) = f r) :
    ∃ r', written writes table k = some r' ∧ f r' = f r := by
  rw [written]
  split
  · next w hw =>
      rw [hr]
      exact ⟨w.edit r, rfl, h w (find_key hw).1 (find_key hw).2⟩
  · exact ⟨r, hr, rfl⟩

theorem written_of_not_mem {writes : List (RowWrite K R)}
    {table : K → Option R} {k : K} (h : ∀ w ∈ writes, w.key ≠ k) :
    written writes table k = table k := by
  rw [written]
  split
  · next w hw => exact absurd (find_key hw).2 (h w (find_key hw).1)
  · rfl

@[simp] theorem commit_self : (s.commit t).txns t = {} := by simp [commit]

@[simp] theorem commit_ne {u : Nat} (h : u ≠ t) :
    (s.commit t).txns u = s.txns u := by simp [commit, h]

theorem Held.commit (h : s.Held) (hc : s.Commits t) : (s.commit t).Held := by
  have habort := h.abort (t := t)
  refine ⟨habort.once, fun v w hw hheld => ?_⟩
  have hstands := habort.fresh v w hw hheld
  have hv : v ≠ t := by
    intro hv
    rw [hv, commit_self] at hw
    exact absurd hw List.not_mem_nil
  rw [commit_ne hv] at hheld
  show written (s.txns t).writes s.table w.key = some w.read
  rw [written_of_not_mem]
  · exact hstands
  · intro w' hw' hkey
    exact hc.free w' hw' ⟨v, hv, hkey ▸ hheld⟩

theorem Held.create (h : s.Held) {k : K} {r : R} (hk : s.table k = none) :
    (s.create k r).Held := by
  refine ⟨h.once, fun v w hw hheld => ?_⟩
  have hstands := h.fresh v w hw hheld
  have hne : w.key ≠ k := by
    intro he
    rw [he, hk] at hstands
    cases hstands
  show Function.update s.table k (some r) w.key = some w.read
  rw [Function.update_of_ne hne]
  exact hstands

end RowStore

end NodeLink.Lib

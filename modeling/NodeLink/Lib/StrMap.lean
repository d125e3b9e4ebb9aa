import Mathlib.Data.List.AList

/-!
# Maps keyed by strings

Finite maps as association lists without duplicate keys, with the two
operations a loop over a whole map amounts to: keeping some of the entries,
and changing each value in place.
-/

namespace NodeLink.Lib

/-- A finite map from strings. -/
abbrev StrMap (β : Type) := AList (fun _ : String => β)

namespace StrMap

variable {β : Type}

/-- The entries for which `p` holds. -/
def filter (p : String → β → Bool) (m : StrMap β) : StrMap β :=
  ⟨m.entries.filter fun e => p e.1 e.2,
    List.NodupKeys.sublist List.filter_sublist m.nodupKeys⟩

/-- Every value replaced by what `f` makes of it. -/
def mapValues (f : String → β → β) (m : StrMap β) : StrMap β :=
  ⟨m.entries.map (.map id f), List.NodupKeys.map₂ f m.entries m.nodupKeys⟩

@[simp] theorem lookup_filter (p : String → β → Bool) (m : StrMap β)
    (k : String) : (filter p m).lookup k = (m.lookup k).filter (p k) := by
  ext b
  rw [Option.filter_eq_some_iff, ← Option.mem_def, ← Option.mem_def,
    AList.mem_lookup_iff, AList.mem_lookup_iff]
  exact List.mem_filter

@[simp] theorem lookup_mapValues (f : String → β → β) (m : StrMap β)
    (k : String) : (mapValues f m).lookup k = (m.lookup k).map (f k) :=
  List.dlookup_map₂ k

/-- All that a map of one entry holds. -/
theorem eq_of_lookup_insert_empty {k k' : String} {b b' : β}
    (h : AList.lookup k (AList.insert k' b' (∅ : StrMap β)) = some b) :
    k = k' ∧ b = b' := by
  by_cases hk : k = k'
  · subst hk
    rw [AList.lookup_insert] at h
    exact ⟨rfl, (Option.some.inj h).symm⟩
  · rw [AList.lookup_insert_ne hk, AList.lookup_empty] at h
    cases h

end StrMap

end NodeLink.Lib

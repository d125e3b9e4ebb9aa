import NodeLink.Agent.Software
import NodeLink.Lib.Folding

/-!
# Software entries and the order of the registry

The list of entries does not depend on the order of the rows exactly where
nothing is left to chance: rows that are equally good for one program make the
same entry, and the comparison of the sort tells every two entries apart.
-/

namespace NodeLink.Proofs.SoftwareOrder

open Lib Agent.Software

section Order

variable (toLower : String → String) (equalFold : String → String → Bool)

/-- A row that stands for a program. -/
def Named (row : RawSoftware) : Prop := trimSpace row.name ≠ ""

instance (row : RawSoftware) : Decidable (Named row) :=
  inferInstanceAs (Decidable (_ ≠ _))

def trimmed (row : RawSoftware) : RawSoftware :=
  { row with name := trimSpace row.name }

def keyOf (row : RawSoftware) : String :=
  dedupKey toLower (trimSpace row.name) row.version

def rowEntry (row : RawSoftware) : SoftwareEntry := entryOf (trimmed row)

/-- No row of the same program has a higher rank. -/
def Top (rows : List RawSoftware) (row : RawSoftware) : Prop :=
  Named row ∧ ∀ other ∈ rows, Named other → keyOf toLower other = keyOf toLower row →
    sourceRank other.source ≤ sourceRank row.source

instance (rows : List RawSoftware) (row : RawSoftware) :
    Decidable (Top toLower rows row) :=
  inferInstanceAs (Decidable (_ ∧ ∀ other ∈ rows, _ → _ → _))

/-- The entries of the best rows. -/
def topEntries (rows : List RawSoftware) : List SoftwareEntry :=
  (rows.filter fun row => decide (Top toLower rows row)).map rowEntry

/-- The best rows of one program make the same entry. -/
def OneEntry (rows : List RawSoftware) : Prop :=
  ∀ row ∈ rows, ∀ other ∈ rows, Top toLower rows row → Top toLower rows other →
    keyOf toLower row = keyOf toLower other → rowEntry row = rowEntry other

/-- The entries the sort is given. -/
def keptEntries (rows : List RawSoftware) : List SoftwareEntry :=
  (bestRows toLower rows).entries.map fun e => entryOf e.2

end Order

section Kept

variable {toLower : String → String} {equalFold : String → String → Bool}
  {rows rows' : List RawSoftware} {row : RawSoftware} {best : StrMap RawSoftware}

/-! ## The best rows -/

theorem lookup_keepBest (k : String) :
    (keepBest toLower best row).lookup k =
      if Named row ∧ keyOf toLower row = k then
        some (match best.lookup k with
          | none => trimmed row
          | some existing =>
            if sourceRank existing.source ≥ sourceRank row.source then existing
            else trimmed row)
      else best.lookup k := by
  unfold keepBest
  by_cases hname : trimSpace row.name = ""
  · rw [if_pos hname, if_neg fun h => h.1 hname]
  rw [if_neg hname]
  dsimp only
  by_cases hk : keyOf toLower row = k
  · rw [if_pos ⟨hname, hk⟩, ← keyOf, hk]
    cases hlookup : best.lookup k with
    | none => exact AList.lookup_insert best
    | some existing =>
        dsimp only
        split
        · exact hlookup
        · exact AList.lookup_insert best
  · rw [if_neg fun h => hk h.2, ← keyOf]
    have hinsert : ∀ r, (best.insert (keyOf toLower row) r).lookup k = best.lookup k :=
      fun r => AList.lookup_insert_ne (Ne.symm hk)
    split
    · exact hinsert _
    · split
      · rfl
      · exact hinsert _

/-- What the first loop has kept of the rows so far. -/
structure Kept (toLower : String → String) (rows : List RawSoftware)
    (best : StrMap RawSoftware) : Prop where
  top : ∀ k kept, best.lookup k = some kept →
    ∃ row ∈ rows, Top toLower rows row ∧ trimmed row = kept ∧ keyOf toLower row = k
  found : ∀ row ∈ rows, Named row →
    ∃ kept, best.lookup (keyOf toLower row) = some kept

theorem Top.mono {more : List RawSoftware} (h : Top toLower rows row)
    (hmore : ∀ other ∈ more, Named other → keyOf toLower other = keyOf toLower row →
      sourceRank other.source ≤ sourceRank row.source) :
    Top toLower (rows ++ more) row := by
  refine ⟨h.1, fun other hother => ?_⟩
  rcases List.mem_append.mp hother with hmem | hmem
  · exact h.2 other hmem
  · exact hmore other hmem

theorem Kept.step (h : Kept toLower rows best) (row : RawSoftware) :
    Kept toLower (rows ++ [row]) (keepBest toLower best row) := by
  have hlast : row ∈ rows ++ [row] :=
    List.mem_append_right _ (List.mem_singleton_self row)
  refine ⟨fun k kept hkept => ?_, fun other hother hnamed => ?_⟩
  · rw [lookup_keepBest] at hkept
    by_cases hrow : Named row ∧ keyOf toLower row = k
    · obtain ⟨hnamed, rfl⟩ := hrow
      rw [if_pos ⟨hnamed, rfl⟩] at hkept
      cases hlookup : best.lookup (keyOf toLower row) with
      | none =>
          -- The first row of the program.
          rw [hlookup] at hkept
          refine ⟨row, hlast, ⟨hnamed, fun other hother hnamed' hkey => ?_⟩,
            Option.some.inj hkept, rfl⟩
          rcases List.mem_append.mp hother with hmem | hmem
          · obtain ⟨kept', hkept'⟩ := h.found other hmem hnamed'
            rw [hkey, hlookup] at hkept'
            cases hkept'
          · rw [List.mem_singleton.mp hmem]
      | some existing =>
          obtain ⟨prior, hprior, htop, htrimmed, hkey⟩ := h.top _ _ hlookup
          have hrank : sourceRank prior.source = sourceRank existing.source := by
            rw [← htrimmed]
            rfl
          rw [hlookup] at hkept
          dsimp only at hkept
          split at hkept
          next hge =>
            refine ⟨prior, List.mem_append_left _ hprior, htop.mono ?_,
              htrimmed.trans (Option.some.inj hkept), hkey⟩
            intro other hother _ _
            rw [List.mem_singleton.mp hother, hrank]
            exact hge
          next hlt =>
            refine ⟨row, hlast, ⟨hnamed, fun other hother hnamed' hkey' => ?_⟩,
              Option.some.inj hkept, rfl⟩
            rcases List.mem_append.mp hother with hmem | hmem
            · have hle := htop.2 other hmem hnamed' (hkey'.trans hkey.symm)
              omega
            · rw [List.mem_singleton.mp hmem]
    · rw [if_neg hrow] at hkept
      obtain ⟨prior, hprior, htop, htrimmed, hkey⟩ := h.top k kept hkept
      refine ⟨prior, List.mem_append_left _ hprior, htop.mono ?_, htrimmed, hkey⟩
      intro other hother hnamed hkey'
      rw [List.mem_singleton.mp hother] at hnamed hkey'
      exact absurd ⟨hnamed, hkey'.trans hkey⟩ hrow
  · rw [lookup_keepBest]
    by_cases hrow : Named row ∧ keyOf toLower row = keyOf toLower other
    · rw [if_pos hrow]
      exact ⟨_, rfl⟩
    · rw [if_neg hrow]
      rcases List.mem_append.mp hother with hmem | hmem
      · exact h.found other hmem hnamed
      · rw [List.mem_singleton.mp hmem] at hrow hnamed
        exact absurd ⟨hnamed, rfl⟩ hrow

theorem Kept.foldl (h : Kept toLower rows best) (more : List RawSoftware) :
    Kept toLower (rows ++ more) (more.foldl (keepBest toLower) best) := by
  induction more generalizing rows best with
  | nil => rwa [List.append_nil]
  | cons row more ih =>
      rw [List.append_cons]
      exact ih (h.step row)

theorem kept_empty : Kept toLower [] ∅ where
  top k kept h := by
    rw [AList.lookup_empty] at h
    cases h
  found row h := absurd h List.not_mem_nil

theorem kept_bestRows (rows : List RawSoftware) :
    Kept toLower rows (bestRows toLower rows) :=
  kept_empty.foldl rows

/-- A row that is kept stays while no better one comes. -/
theorem foldl_keepBest_lookup {k : String} {kept : RawSoftware}
    (h : best.lookup k = some kept)
    (hrows : ∀ row ∈ rows, Named row → keyOf toLower row = k →
      sourceRank row.source ≤ sourceRank kept.source) :
    (rows.foldl (keepBest toLower) best).lookup k = some kept := by
  induction rows generalizing best with
  | nil => exact h
  | cons row rows ih =>
      rw [List.forall_mem_cons] at hrows
      refine ih ?_ hrows.2
      rw [lookup_keepBest]
      split
      next hrow =>
        rw [h]
        dsimp only
        rw [if_pos (hrows.1 hrow.1 hrow.2)]
      next => exact h

/-- Of the best rows of a program the first is kept. -/
theorem bestRows_lookup_head (h : Top toLower (row :: rows) row) :
    (bestRows toLower (row :: rows)).lookup (keyOf toLower row) =
      some (trimmed row) := by
  have hfirst : (keepBest toLower ∅ row).lookup (keyOf toLower row) =
      some (trimmed row) := by
    rw [lookup_keepBest, if_pos ⟨h.1, rfl⟩]
    rfl
  rw [bestRows, List.foldl_cons]
  exact foldl_keepBest_lookup hfirst fun other hother =>
    h.2 other (List.mem_cons_of_mem _ hother)

/-! ## The entries of the best rows -/

/-- The key of the program an entry stands for. -/
def entryKey (toLower : String → String) (entry : SoftwareEntry) : String :=
  dedupKey toLower entry.name (entry.version.getD "")

theorem trimSpace_trimSpace (s : String) : trimSpace (trimSpace s) = trimSpace s := by
  rw [trimSpace, trimSpace, String.toList_ofList, trim_trim]

theorem entryKey_rowEntry : entryKey toLower (rowEntry row) = keyOf toLower row := by
  have hversion : (optionalMember row.version).getD "" = trimSpace row.version := by
    unfold optionalMember
    split
    next h => exact h.symm
    next => rfl
  show dedupKey toLower (trimSpace row.name) ((optionalMember row.version).getD "") = _
  rw [hversion, keyOf, dedupKey, dedupKey, trimSpace_trimSpace]

theorem mem_keptEntries {entry : SoftwareEntry} :
    entry ∈ keptEntries toLower rows ↔
      ∃ k kept, (bestRows toLower rows).lookup k = some kept ∧ entryOf kept = entry := by
  unfold keptEntries
  rw [List.mem_map]
  constructor
  · rintro ⟨⟨k, kept⟩, hmem, hentry⟩
    exact ⟨k, kept, AList.mem_lookup_iff.mpr hmem, hentry⟩
  · rintro ⟨k, kept, hlookup, hentry⟩
    exact ⟨⟨k, kept⟩, AList.mem_lookup_iff.mp hlookup, hentry⟩

theorem mem_topEntries {entry : SoftwareEntry} :
    entry ∈ topEntries toLower rows ↔
      ∃ row ∈ rows, Top toLower rows row ∧ rowEntry row = entry := by
  unfold topEntries
  simp only [List.mem_map, List.mem_filter, decide_eq_true_eq, and_assoc]

theorem keptEntries_subset : keptEntries toLower rows ⊆ topEntries toLower rows := by
  intro entry hentry
  obtain ⟨k, kept, hlookup, rfl⟩ := mem_keptEntries.mp hentry
  obtain ⟨row, hrow, htop, rfl, _⟩ := (kept_bestRows rows).top k kept hlookup
  exact mem_topEntries.mpr ⟨row, hrow, htop, rfl⟩

theorem topEntries_subset (h : OneEntry toLower rows) :
    topEntries toLower rows ⊆ keptEntries toLower rows := by
  intro entry hentry
  obtain ⟨row, hrow, htop, rfl⟩ := mem_topEntries.mp hentry
  obtain ⟨kept, hlookup⟩ := (kept_bestRows rows).found row hrow htop.1
  obtain ⟨other, hother, htop', rfl, hkey⟩ := (kept_bestRows rows).top _ _ hlookup
  exact mem_keptEntries.mpr
    ⟨_, _, hlookup, h other hother row hrow htop' htop hkey⟩

theorem keptEntries_keys_nodup :
    ((keptEntries toLower rows).map (entryKey toLower)).Nodup := by
  have hkeys : (keptEntries toLower rows).map (entryKey toLower) =
      (bestRows toLower rows).entries.map Sigma.fst := by
    rw [keptEntries, List.map_map]
    refine List.map_congr_left fun e he => ?_
    obtain ⟨row, _, _, hkept, hkey⟩ :=
      (kept_bestRows rows).top e.1 e.2 (AList.mem_lookup_iff.mpr he)
    show entryKey toLower (entryOf e.2) = e.1
    rw [← hkept, ← hkey]
    exact entryKey_rowEntry
  rw [hkeys]
  exact (bestRows toLower rows).nodupKeys

/-- The entries kept of different programs differ. -/
theorem keptEntries_nodup : (keptEntries toLower rows).Nodup :=
  List.Nodup.of_map (entryKey toLower) keptEntries_keys_nodup

/-- A program has one entry. -/
theorem keptEntries_inj {entry entry' : SoftwareEntry}
    (h : entry ∈ keptEntries toLower rows) (h' : entry' ∈ keptEntries toLower rows)
    (hkey : entryKey toLower entry = entryKey toLower entry') : entry = entry' :=
  List.inj_on_of_nodup_map keptEntries_keys_nodup h h' hkey

/-! ## The order of the rows -/

theorem Top.perm (h : Top toLower rows row) (hperm : rows'.Perm rows) :
    Top toLower rows' row :=
  ⟨h.1, fun other hother => h.2 other (hperm.subset hother)⟩

theorem topEntries_subset_of_perm (hperm : rows'.Perm rows) :
    topEntries toLower rows' ⊆ topEntries toLower rows := by
  intro entry hentry
  obtain ⟨row, hrow, htop, rfl⟩ := mem_topEntries.mp hentry
  exact mem_topEntries.mpr ⟨row, hperm.subset hrow, htop.perm hperm.symm, rfl⟩

theorem OneEntry.perm (h : OneEntry toLower rows) (hperm : rows'.Perm rows) :
    OneEntry toLower rows' := fun row hrow other hother htop htop' =>
  h row (hperm.subset hrow) other (hperm.subset hother) (htop.perm hperm.symm)
    (htop'.perm hperm.symm)

theorem keptEntries_perm (h : OneEntry toLower rows) (hperm : rows'.Perm rows) :
    (keptEntries toLower rows').Perm (keptEntries toLower rows) := by
  refine (List.perm_ext_iff_of_nodup keptEntries_nodup keptEntries_nodup).mpr ?_
  intro entry
  constructor
  · intro hentry
    exact topEntries_subset h
      (topEntries_subset_of_perm hperm (keptEntries_subset hentry))
  · intro hentry
    exact topEntries_subset (h.perm hperm)
      (topEntries_subset_of_perm hperm.symm (keptEntries_subset hentry))

theorem normalizeSoftware_iff {entries : List SoftwareEntry} :
    NormalizeSoftware toLower equalFold rows entries ↔
      SortSlice (entryLess toLower equalFold) (keptEntries toLower rows) entries := by
  have hmap : ((bestRows toLower rows).entries.map (·.2)).map entryOf =
      keptEntries toLower rows := by
    rw [List.map_map]
    rfl
  constructor
  · rintro ⟨kept, hkept, hsort⟩
    exact hsort.of_perm (hmap ▸ hkept.map entryOf)
  · intro hsort
    exact ⟨_, List.Perm.refl _, hmap ▸ hsort⟩

theorem entryLess_irrefl (entry : SoftwareEntry) :
    entryLess toLower equalFold entry entry = false := by
  unfold entryLess
  split
  · exact decide_eq_false (String.lt_irrefl _)
  · exact decide_eq_false (String.lt_irrefl _)

end Kept

theorem exists_normalizeSoftware (toLower : String → String)
    (equalFold : String → String → Bool) (rows : List RawSoftware) :
    ∃ entries, NormalizeSoftware toLower equalFold rows entries := by
  obtain ⟨entries, hentries⟩ :=
    exists_sortSlice (entryLess toLower equalFold) (keptEntries toLower rows)
  exact ⟨entries, normalizeSoftware_iff.mpr hentries⟩

/-- Where the order of the rows does not matter, every order keeps the entry of
each best row. -/
theorem rowEntry_mem_of_order {toLower : String → String}
    {equalFold : String → String → Bool} {rows : List RawSoftware}
    {entries : List SoftwareEntry} {row : RawSoftware}
    (h : ∀ rows' entries', rows'.Perm rows →
      NormalizeSoftware toLower equalFold rows' entries' → entries = entries')
    (hrow : row ∈ rows) (htop : Top toLower rows row) : rowEntry row ∈ entries := by
  classical
  have hperm : (row :: rows.erase row).Perm rows := (List.perm_cons_erase hrow).symm
  obtain ⟨entries', hentries'⟩ :=
    exists_normalizeSoftware toLower equalFold (row :: rows.erase row)
  have hmem : rowEntry row ∈ keptEntries toLower (row :: rows.erase row) :=
    mem_keptEntries.mpr ⟨_, _, bestRows_lookup_head (htop.perm hperm), rfl⟩
  rw [h _ entries' hperm hentries']
  exact (normalizeSoftware_iff.mp hentries').perm.symm.subset hmem

/-- Where the order of the rows does not matter, the best rows of a program make
one entry. -/
theorem oneEntry_of_order {toLower : String → String}
    {equalFold : String → String → Bool} {rows : List RawSoftware}
    (h : ∀ rows' entries entries', rows'.Perm rows →
      NormalizeSoftware toLower equalFold rows entries →
      NormalizeSoftware toLower equalFold rows' entries' → entries = entries') :
    OneEntry toLower rows := by
  intro row hrow other hother htop htop' hkey
  obtain ⟨entries, hentries⟩ := exists_normalizeSoftware toLower equalFold rows
  have hsame := fun rows' entries' hperm => h rows' entries entries' hperm hentries
  -- Both entries are in the one list, and a program has one entry there.
  have hkept := (normalizeSoftware_iff.mp hentries).perm
  exact keptEntries_inj (hkept.subset (rowEntry_mem_of_order hsame hrow htop))
    (hkept.subset (rowEntry_mem_of_order hsame hother htop'))
    (by rw [entryKey_rowEntry, entryKey_rowEntry, hkey])

/-- `NormalizeSoftware` gives one list for all orders of the rows exactly where
the best rows of every program make one entry, and the comparison orders every
two of these entries. -/
theorem normalize_order_iff (toLower : String → String)
    (equalFold : String → String → Bool) (rows : List RawSoftware) :
    (∀ rows' entries entries', rows'.Perm rows →
        NormalizeSoftware toLower equalFold rows entries →
        NormalizeSoftware toLower equalFold rows' entries' → entries = entries') ↔
      OneEntry toLower rows ∧
        StrictTotalOn (entryLess toLower equalFold) (topEntries toLower rows) := by
  constructor
  · intro h
    have hone := oneEntry_of_order h
    refine ⟨hone, ?_⟩
    have hkept := (sortSlice_unique_iff
      (fun entry _ => @entryLess_irrefl toLower equalFold entry)
      (@keptEntries_nodup toLower rows)).mp
      fun ys zs hys hzs => h rows ys zs (List.Perm.refl _)
        (normalizeSoftware_iff.mpr hys) (normalizeSoftware_iff.mpr hzs)
    exact hkept.of_subset (topEntries_subset hone)
  · rintro ⟨hone, htotal⟩ rows' entries entries' hperm hentries hentries'
    have hsort := normalizeSoftware_iff.mp hentries
    have hsort' := (normalizeSoftware_iff.mp hentries').of_perm
      (keptEntries_perm hone hperm)
    exact SortSlice.unique (htotal.of_subset keptEntries_subset) hsort hsort'

/-! ## Two rows of one program -/

/-- One program twice in the registry of the machine, with different publishers. -/
def firstRow : RawSoftware where
  name := "7-Zip"
  version := "23.01"
  publisher := "A"
  source := "machine_x64"

def secondRow : RawSoftware := { firstRow with publisher := "B" }

/-- Lower case, of ASCII. -/
def lower (s : String) : String := String.ofList (s.toList.map asciiLower)

theorem top_rows : Top lower [firstRow, secondRow] firstRow ∧
    Top lower [firstRow, secondRow] secondRow := by
  have hrank : ∀ row ∈ [firstRow, secondRow], sourceRank row.source ≤ 3 := by decide
  exact ⟨⟨by decide, fun row hrow _ _ => hrank row hrow⟩,
    ⟨by decide, fun row hrow _ _ => hrank row hrow⟩⟩

/-- The two orders of the rows do not give the same list. -/
theorem normalize_order_matters :
    ¬ ∀ rows' entries entries', rows'.Perm [firstRow, secondRow] →
        NormalizeSoftware lower (fun s t => lower s == lower t)
          [firstRow, secondRow] entries →
        NormalizeSoftware lower (fun s t => lower s == lower t) rows' entries' →
        entries = entries' := by
  intro h
  have hentry := oneEntry_of_order h firstRow (by simp) secondRow (by simp) top_rows.1
    top_rows.2 rfl
  have hpublisher := congrArg SoftwareEntry.publisher hentry
  exact absurd hpublisher (by decide)

end NodeLink.Proofs.SoftwareOrder

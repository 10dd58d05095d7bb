import Commonwake.Table

/-!
# Tables which keep one row for every key

A table into which rows are written one after the other keeps the last row of
every key when a row replaces the one with its key, and the first row of every
key when such a row is ignored.  What the table holds is then a function of the
written rows.
-/

namespace LastWriter

open Table

variable {α β κ : Type} [DecidableEq κ]

/-- The last of the rows with the given key. -/
def lastOf (key : α → κ) (k : κ) (written : List α) : Option α :=
  (written.filter fun row => decide (key row = k)).getLast?

/-- The first of the rows with the given key. -/
def firstOf (key : α → κ) (k : κ) (written : List α) : Option α :=
  written.find? fun row => decide (key row = k)

/-- The table holds the last row of every key. -/
structure HoldsLast (key : α → κ) (written table : List α) : Prop where
  mem : ∀ row, row ∈ table ↔ lastOf key (key row) written = some row
  nodup : (table.map key).Nodup

/-- The table holds the first row of every key. -/
structure HoldsFirst (key : α → κ) (written table : List α) : Prop where
  mem : ∀ row, row ∈ table ↔ firstOf key (key row) written = some row
  nodup : (table.map key).Nodup

variable {key : α → κ} {k : κ} {written table : List α} {row : α}

/-! ## The last row -/

theorem lastOf_append_singleton (k : κ) (written : List α) (row : α) :
    lastOf key k (written ++ [row]) =
      if key row = k then some row else lastOf key k written := by
  unfold lastOf
  rw [List.filter_append]
  by_cases hkey : key row = k
  · rw [if_pos hkey, List.filter_cons_of_pos (by simpa using hkey), List.filter_nil,
      List.getLast?_append]
    rfl
  · rw [if_neg hkey, List.filter_cons_of_neg (by simpa using hkey), List.filter_nil,
      List.append_nil]

theorem mem_of_lastOf (h : lastOf key k written = some row) : row ∈ written ∧ key row = k := by
  have hmem := List.mem_of_getLast? h
  rw [List.mem_filter, decide_eq_true_eq] at hmem
  exact hmem

/-- The last row with a key depends on the rows of the same part only. -/
theorem lastOf_filter {part : α → Bool} (h : ∀ row, key row = k → part row = true)
    (written : List α) : lastOf key k (written.filter part) = lastOf key k written := by
  unfold lastOf
  rw [List.filter_filter]
  have htest : (fun row => decide (key row = k) && part row) =
      fun row => decide (key row = k) := by
    funext row
    by_cases hkey : key row = k
    · rw [h row hkey, Bool.and_true]
    · rw [decide_eq_false hkey, Bool.false_and]
  rw [htest]

theorem HoldsLast.nil : HoldsLast key [] ([] : List α) := by
  refine ⟨?_, List.nodup_nil⟩
  intro row
  simp [lastOf]

/-- A row which replaces the one with its key is the last one. -/
theorem HoldsLast.upsert (h : HoldsLast key written table) {same : α → Bool}
    (hsame : ∀ old, same old = true ↔ key old = key row) :
    HoldsLast key (written ++ [row]) (upsert same (fun _ => row) row table) := by
  refine ⟨?_, nodup_upsert hsame (fun old hold => ((hsame old).mp hold).symm) h.nodup⟩
  intro r
  rw [mem_upsert_iff, lastOf_append_singleton, ← Bool.not_eq_true, hsame]
  by_cases hkey : key row = key r
  · rw [if_pos hkey, Option.some.injEq]
    constructor
    · rintro (hr | ⟨-, hother⟩)
      · exact hr.symm
      · exact absurd hkey.symm hother
    · intro hr
      exact .inl hr.symm
  · rw [if_neg hkey, ← h.mem r]
    constructor
    · rintro (rfl | ⟨hr, -⟩)
      · exact absurd rfl hkey
      · exact hr
    · intro hr
      exact .inr ⟨hr, fun hsameKey => hkey hsameKey.symm⟩

/-- Looking a key up finds the last row which was written for it. -/
theorem HoldsLast.find? (h : HoldsLast key written table) {test : α → Bool}
    (htest : ∀ old, test old = true ↔ key old = k) :
    table.find? test = lastOf key k written := by
  cases hlast : lastOf key k written with
  | none =>
      rw [List.find?_eq_none]
      intro row hrow hpass
      have hkey := (htest row).mp hpass
      have hwritten := (h.mem row).mp hrow
      rw [hkey, hlast] at hwritten
      cases hwritten
  | some last =>
      have hkey : key last = k := (mem_of_lastOf hlast).2
      have hlastMem : last ∈ table := by
        rw [h.mem last, hkey]
        exact hlast
      have hsome : (table.find? test).isSome = true := by
        rw [List.find?_isSome]
        exact ⟨last, hlastMem, (htest last).mpr hkey⟩
      obtain ⟨found, hfound⟩ := Option.isSome_iff_exists.mp hsome
      have hfoundKey := (htest found).mp (List.find?_some hfound)
      have hfoundLast := (h.mem found).mp (List.mem_of_find?_eq_some hfound)
      rw [hfoundKey, hlast] at hfoundLast
      rw [hfound, hfoundLast]

/-! ## The first row -/

theorem firstOf_append_singleton (k : κ) (written : List α) (row : α) :
    firstOf key k (written ++ [row]) =
      (firstOf key k written).or (if key row = k then some row else none) := by
  unfold firstOf
  rw [List.find?_append]
  congr 1
  by_cases hkey : key row = k
  · rw [if_pos hkey, List.find?_cons_of_pos (by simpa using hkey)]
  · rw [if_neg hkey, List.find?_cons_of_neg (by simpa using hkey), List.find?_nil]

theorem mem_of_firstOf (h : firstOf key k written = some row) :
    row ∈ written ∧ key row = k := by
  refine ⟨List.mem_of_find?_eq_some h, ?_⟩
  have htest := List.find?_some h
  rw [decide_eq_true_eq] at htest
  exact htest

theorem HoldsFirst.nil : HoldsFirst key [] ([] : List α) := by
  refine ⟨?_, List.nodup_nil⟩
  intro row
  simp [firstOf]

/-- Every written row has a row with its key in the table. -/
theorem HoldsFirst.exists_of_mem (h : HoldsFirst key written table) (hrow : row ∈ written) :
    ∃ first ∈ table, key first = key row ∧ firstOf key (key row) written = some first := by
  have hsome : (firstOf key (key row) written).isSome = true := by
    unfold firstOf
    rw [List.find?_isSome]
    exact ⟨row, hrow, decide_eq_true rfl⟩
  obtain ⟨first, hfirst⟩ := Option.isSome_iff_exists.mp hsome
  have hkey := (mem_of_firstOf hfirst).2
  refine ⟨first, ?_, hkey, hfirst⟩
  rw [h.mem first, hkey]
  exact hfirst

/-- A row which is ignored when there is one with its key. -/
theorem HoldsFirst.insertOrIgnore (h : HoldsFirst key written table) {clash : α → Bool}
    (hclash : ∀ old ∈ table, clash old = true ↔ key old = key row) :
    HoldsFirst key (written ++ [row]) (insertOrIgnore clash row table) := by
  unfold Table.insertOrIgnore
  by_cases hany : table.any clash = true
  · -- The first row with this key is an older one.
    rw [if_pos hany]
    refine ⟨?_, h.nodup⟩
    intro r
    rw [firstOf_append_singleton]
    obtain ⟨old, hold, hclashes⟩ := List.any_eq_true.mp hany
    have holdKey := (hclash old hold).mp hclashes
    have hfirst := (h.mem old).mp hold
    by_cases hkey : key row = key r
    · rw [h.mem r, ← hkey, ← holdKey, hfirst, Option.some_or]
    · rw [if_neg hkey, Option.or_none]
      exact h.mem r
  · rw [if_neg hany]
    have hnone : ∀ old ∈ table, key old ≠ key row := by
      intro old hold hkey
      exact hany (List.any_eq_true.mpr ⟨old, hold, (hclash old hold).mpr hkey⟩)
    constructor
    · intro r
      rw [firstOf_append_singleton, List.mem_append, List.mem_singleton]
      by_cases hkey : key row = key r
      · have habsent : firstOf key (key r) written = none := by
          cases hfirst : firstOf key (key r) written with
          | none => rfl
          | some first =>
              obtain ⟨-, hfirstKey⟩ := mem_of_firstOf hfirst
              have hmem : first ∈ table := by
                rw [h.mem first, hfirstKey]
                exact hfirst
              exact absurd (hfirstKey.trans hkey.symm) (hnone first hmem)
        rw [habsent, if_pos hkey, Option.none_or, Option.some.injEq]
        constructor
        · rintro (hr | hr)
          · rw [h.mem r, habsent] at hr
            cases hr
          · exact hr.symm
        · intro hr
          exact .inr hr.symm
      · rw [if_neg hkey, Option.or_none, ← h.mem r]
        constructor
        · rintro (hr | rfl)
          · exact hr
          · exact absurd rfl hkey
        · exact .inl
    · rw [List.map_append, List.nodup_append]
      refine ⟨h.nodup, List.nodup_singleton _, ?_⟩
      intro k hk other hother
      obtain ⟨old, hold, rfl⟩ := List.mem_map.mp hk
      rw [List.mem_singleton.mp hother]
      exact hnone old hold

/-! ## Two tables -/

/-- Tables with the same last rows are permutations of each other. -/
theorem HoldsLast.perm {others second : List α} (h : HoldsLast key written table)
    (hsecond : HoldsLast key others second)
    (hlast : ∀ k, lastOf key k written = lastOf key k others) : table.Perm second := by
  rw [List.perm_ext_iff_of_nodup h.nodup.of_map hsecond.nodup.of_map]
  intro row
  rw [h.mem row, hsecond.mem row, hlast]

/-- When a key determines the content of a row, tables into which the same rows
were written, in whatever order, agree on the contents. -/
theorem HoldsFirst.map_perm {others second : List α} {content : α → β}
    (h : HoldsFirst key written table) (hsecond : HoldsFirst key others second)
    (hsame : ∀ row, row ∈ written ↔ row ∈ others)
    (hcontent : ∀ row ∈ written, ∀ other ∈ written,
      content row = content other ↔ key row = key other) :
    (table.map content).Perm (second.map content) := by
  have hwritten : ∀ row ∈ table, row ∈ written := by
    intro row hrow
    exact (mem_of_firstOf ((h.mem row).mp hrow)).1
  have hsecondWritten : ∀ row ∈ second, row ∈ written := by
    intro row hrow
    exact (hsame row).mpr (mem_of_firstOf ((hsecond.mem row).mp hrow)).1
  have hnodup : ∀ {rows : List α}, (∀ row ∈ rows, row ∈ written) → (rows.map key).Nodup →
      (rows.map content).Nodup := by
    intro rows hrows hkeys
    refine hkeys.of_map.map_on ?_
    intro row hrow other hother hequal
    have hkey := (hcontent row (hrows row hrow) other (hrows other hother)).mp hequal
    exact List.inj_on_of_nodup_map hkeys hrow hother hkey
  rw [List.perm_ext_iff_of_nodup (hnodup hwritten h.nodup)
    (hnodup hsecondWritten hsecond.nodup)]
  intro c
  rw [List.mem_map, List.mem_map]
  constructor
  · rintro ⟨row, hrow, rfl⟩
    obtain ⟨first, hfirst, hkey, -⟩ :=
      hsecond.exists_of_mem ((hsame row).mp (hwritten row hrow))
    exact ⟨first, hfirst, (hcontent first (hsecondWritten first hfirst) row
      (hwritten row hrow)).mpr hkey⟩
  · rintro ⟨row, hrow, rfl⟩
    obtain ⟨first, hfirst, hkey, -⟩ := h.exists_of_mem (hsecondWritten row hrow)
    exact ⟨first, hfirst, (hcontent first (hwritten first hfirst) row
      (hsecondWritten row hrow)).mpr hkey⟩

end LastWriter

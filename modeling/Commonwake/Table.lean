import Commonwake.Outcome

/-!
# Tables

A table is the list of its rows in the order of insertion.  The four ways in
which a statement writes a table are functions on lists; a uniqueness
constraint is given by the rows with which a new row would clash.
-/

namespace Table

variable {α β ε : Type}

/-- `INSERT` under a uniqueness constraint. -/
def insertNew (clash : α → Bool) (error : ε) (row : α) (rows : List α) :
    Except ε (List α) :=
  if rows.any clash then .error error else .ok (rows ++ [row])

/-- `INSERT OR IGNORE`. -/
def insertOrIgnore (clash : α → Bool) (row : α) (rows : List α) : List α :=
  if rows.any clash then rows else rows ++ [row]

/-- `INSERT ... ON CONFLICT DO UPDATE`: `update` is applied to the rows with
the key of the new one. -/
def upsert (same : α → Bool) (update : α → α) (row : α) (rows : List α) :
    List α :=
  if rows.any same
  then rows.map fun old => if same old then update old else old
  else rows ++ [row]

/-- `UPDATE ... WHERE`. -/
def updateWhere (condition : α → Bool) (update : α → α) (rows : List α) :
    List α :=
  rows.map fun row => if condition row then update row else row

@[simp] theorem insertNew_eq_ok {clash : α → Bool} {error : ε} {row : α}
    {rows next : List α} :
    insertNew clash error row rows = .ok next ↔
      rows.any clash = false ∧ next = rows ++ [row] := by
  unfold insertNew
  cases h : rows.any clash with
  | true => simp
  | false =>
      simp only [Bool.false_eq_true, if_false, Except.ok.injEq, true_and]
      exact eq_comm

theorem insertNew_of_fresh {clash : α → Bool} {error : ε} {row : α} {rows : List α}
    (h : rows.any clash = false) : insertNew clash error row rows = .ok (rows ++ [row]) :=
  insertNew_eq_ok.mpr ⟨h, rfl⟩

theorem mem_insertOrIgnore {clash : α → Bool} {row r : α} {rows : List α}
    (h : r ∈ insertOrIgnore clash row rows) : r ∈ rows ∨ r = row := by
  unfold insertOrIgnore at h
  split at h
  · exact .inl h
  · simpa using h

/-- Afterwards there is a row which the constraint identifies with the new
one. -/
theorem exists_mem_insertOrIgnore {property : α → Prop} (clash : α → Bool) (row : α)
    (rows : List α) (hrow : property row)
    (hclash : ∀ r, clash r = true → property r) :
    ∃ r ∈ insertOrIgnore clash row rows, property r := by
  unfold insertOrIgnore
  split
  · next h =>
      obtain ⟨r, hr, hc⟩ := List.any_eq_true.mp h
      exact ⟨r, hr, hclash r hc⟩
  · exact ⟨row, by simp, hrow⟩

/-- At most one row is added. -/
theorem insertOrIgnore_eq_append (clash : α → Bool) (row : α) (rows : List α) :
    ∃ added, insertOrIgnore clash row rows = rows ++ added ∧ ∀ r ∈ added, r = row := by
  unfold insertOrIgnore
  split
  · exact ⟨[], by simp, by simp⟩
  · exact ⟨[row], rfl, by simp⟩

theorem subset_insertOrIgnore (clash : α → Bool) (row : α) (rows : List α) :
    rows ⊆ insertOrIgnore clash row rows := by
  unfold insertOrIgnore
  split
  · exact List.Subset.refl rows
  · exact List.subset_append_left rows [row]

/-- A column which the update leaves alone keeps its values. -/
theorem map_updateWhere {condition : α → Bool} {update : α → α} {f : α → β}
    (h : ∀ row, condition row = true → f (update row) = f row) (rows : List α) :
    (updateWhere condition update rows).map f = rows.map f := by
  unfold updateWhere
  rw [List.map_map]
  refine List.map_congr_left fun row _ => ?_
  by_cases hc : condition row
  · simp [hc, h row hc]
  · simp [hc]

/-- A search by a column which the update leaves alone finds the updated row. -/
theorem find?_updateWhere {condition test : α → Bool} {update : α → α}
    (h : ∀ row, condition row = true → test (update row) = test row)
    (rows : List α) :
    (updateWhere condition update rows).find? test =
      (rows.find? test).map fun row =>
        if condition row then update row else row := by
  unfold updateWhere
  rw [List.find?_map]
  have htest : (test ∘ fun row => if condition row then update row else row) =
      test := by
    funext row
    by_cases hc : condition row
    · simp [hc, h row hc]
    · simp [hc]
  rw [htest]

/-- A condition which selects a row by its key selects no other. -/
theorem countP_eq_one {key : α → β} {rows : List α} {test : α → Bool} {row : α}
    (hdistinct : (rows.map key).Nodup) (hrow : row ∈ rows) (htest : test row = true)
    (hkey : ∀ r ∈ rows, test r = true → key r = key row) :
    rows.countP test = 1 := by
  induction rows with
  | nil => cases hrow
  | cons first rest ih =>
      obtain ⟨hfirst, hrest⟩ := List.nodup_cons.mp hdistinct
      rcases List.mem_cons.mp hrow with rfl | hmem
      · have hnone : rest.countP test = 0 := by
          rw [List.countP_eq_zero]
          intro r hr htrue
          exact hfirst (hkey r (List.mem_cons_of_mem _ hr) htrue ▸ List.mem_map_of_mem hr)
        rw [List.countP_cons_of_pos htest, hnone]
      · have hfalse : ¬ test first = true := by
          intro htrue
          rw [hkey first List.mem_cons_self htrue] at hfirst
          exact hfirst (List.mem_map_of_mem hmem)
        rw [List.countP_cons_of_neg hfalse]
        exact ih hrest hmem fun r hr => hkey r (List.mem_cons_of_mem _ hr)

/-- What an upsert of a whole row counts, when at most one row has its key. -/
theorem countP_upsert {same : α → Bool} {rows : List α} (row : α) (test : α → Bool)
    (hunique : rows.countP same ≤ 1) :
    (upsert same (fun _ => row) row rows).countP test =
      (rows.filter fun r => !same r).countP test + if test row then 1 else 0 := by
  have hmap : ∀ rows : List α,
      (rows.map fun old => if same old then row else old).countP test =
        (rows.filter fun r => !same r).countP test +
          rows.countP same * if test row then 1 else 0 := by
    intro rows
    induction rows with
    | nil => simp
    | cons first rest ih =>
        simp only [List.map_cons, List.countP_cons, List.filter_cons, ih]
        cases hsame : same first with
        | true =>
            simp only [if_true, Bool.not_true, Bool.false_eq_true, if_false, Nat.add_mul,
              Nat.one_mul]
            omega
        | false =>
            simp only [Bool.false_eq_true, if_false, Bool.not_false, if_true,
              List.countP_cons, Nat.add_zero]
            omega
  unfold upsert
  by_cases hany : rows.any same = true
  · rw [if_pos hany, hmap]
    have hpositive : 0 < rows.countP same := by
      rw [List.countP_pos_iff]
      simpa using hany
    have hone : rows.countP same = 1 := by omega
    rw [hone, Nat.one_mul]
  · have hnone : rows.filter (fun r => !same r) = rows := by
      rw [List.filter_eq_self]
      intro r hr
      have hall : rows.any same = false := by simpa using hany
      rw [List.any_eq_false] at hall
      simpa using hall r hr
    rw [if_neg hany, hnone, List.countP_append, List.countP_singleton]

/-- A search by the key finds the new row. -/
theorem find?_upsert_self {same : α → Bool} {row : α} (hrow : same row = true)
    (rows : List α) : (upsert same (fun _ => row) row rows).find? same = some row := by
  unfold upsert
  by_cases hany : rows.any same = true
  · rw [if_pos hany]
    obtain ⟨old, hold, htest⟩ := List.any_eq_true.mp hany
    have hmap : same ∘ (fun old => if same old then row else old) = same := by
      funext r
      by_cases hr : same r = true
      · simp [hr, hrow]
      · simp [hr]
    rw [List.find?_map, hmap]
    obtain ⟨first, hfirst⟩ := Option.isSome_iff_exists.mp
      (List.find?_isSome.mpr ⟨old, hold, htest⟩)
    have hsame := List.find?_some hfirst
    simp [hfirst, hsame]
  · rw [if_neg hany, List.find?_append]
    have hnone : rows.find? same = none := by
      rw [List.find?_eq_none]
      intro old hold htest
      exact hany (List.any_eq_true.mpr ⟨old, hold, htest⟩)
    simp [hnone, hrow]

/-- A search for other rows is not affected. -/
theorem find?_upsert_of_ne {same test : α → Bool} {row : α}
    (hrow : test row = false) (hsame : ∀ r, same r = true → test r = false)
    (rows : List α) : (upsert same (fun _ => row) row rows).find? test = rows.find? test := by
  unfold upsert
  by_cases hany : rows.any same = true
  · rw [if_pos hany]
    clear hany
    induction rows with
    | nil => rfl
    | cons r rest ih =>
        rw [List.map_cons, List.find?_cons, List.find?_cons]
        by_cases hr : same r = true
        · rw [if_pos hr, hrow, hsame r hr]
          exact ih
        · rw [if_neg hr, ih]
  · rw [if_neg hany, List.find?_append]
    simp [hrow]

/-- The key of a row finds the row. -/
theorem find?_eq_some_of_nodup {γ : Type} [DecidableEq γ] {key : α → γ} {rows : List α}
    {row : α} (hnodup : (rows.map key).Nodup) (hrow : row ∈ rows) :
    rows.find? (fun stored => key stored == key row) = some row := by
  obtain ⟨found, hfound⟩ : ∃ found,
      rows.find? (fun stored => key stored == key row) = some found := by
    rw [← Option.isSome_iff_exists, List.find?_isSome]
    exact ⟨row, hrow, beq_self_eq_true _⟩
  have hsame : key found = key row := by
    simpa using List.find?_some hfound
  rw [hfound, List.inj_on_of_nodup_map hnodup (List.mem_of_find?_eq_some hfound) hrow hsame]

theorem mem_upsert {same : α → Bool} {row r : α} {rows : List α}
    (h : r ∈ upsert same (fun _ => row) row rows) : r = row ∨ r ∈ rows := by
  unfold upsert at h
  split at h
  · obtain ⟨old, hold, rfl⟩ := List.mem_map.mp h
    by_cases hsame : same old = true
    · rw [if_pos hsame]
      exact .inl rfl
    · rw [if_neg hsame]
      exact .inr hold
  · rcases List.mem_append.mp h with hold | hnew
    · exact .inr hold
    · exact .inl (List.mem_singleton.mp hnew)

/-- A row after an upsert is an old row, an updated one, or the new one. -/
theorem upsert_cases {same : α → Bool} {update : α → α} {row r : α} {rows : List α}
    (h : r ∈ upsert same update row rows) :
    (r ∈ rows ∧ same r = false) ∨ (∃ old ∈ rows, same old = true ∧ r = update old) ∨
      (rows.any same = false ∧ r = row) := by
  unfold upsert at h
  by_cases hany : rows.any same = true
  · rw [if_pos hany] at h
    obtain ⟨old, hold, rfl⟩ := List.mem_map.mp h
    by_cases hsame : same old = true
    · rw [if_pos hsame]
      exact .inr (.inl ⟨old, hold, hsame, rfl⟩)
    · rw [if_neg hsame]
      exact .inl ⟨hold, by simpa using hsame⟩
  · rw [if_neg hany] at h
    have hnone : rows.any same = false := by simpa using hany
    rcases List.mem_append.mp h with hold | hnew
    · exact .inl ⟨hold, by simpa using List.any_eq_false.mp hnone r hold⟩
    · exact .inr (.inr ⟨hnone, List.mem_singleton.mp hnew⟩)

/-- A row which is not updated stays. -/
theorem mem_upsert_of_old {same : α → Bool} {update : α → α} {row r : α} {rows : List α}
    (hr : r ∈ rows) (hsame : same r = false) : r ∈ upsert same update row rows := by
  unfold upsert
  split
  · exact List.mem_map.mpr ⟨r, hr, by simp [hsame]⟩
  · exact List.mem_append_left _ hr

theorem mem_upsert_iff {same : α → Bool} {row r : α} {rows : List α} :
    r ∈ upsert same (fun _ => row) row rows ↔ r = row ∨ (r ∈ rows ∧ same r = false) := by
  constructor
  · intro hr
    rcases upsert_cases hr with hold | ⟨_, -, -, hnew⟩ | ⟨-, hnew⟩
    · exact .inr hold
    · exact .inl hnew
    · exact .inl hnew
  · rintro (rfl | ⟨hold, hsame⟩)
    · unfold upsert
      by_cases hany : rows.any same = true
      · obtain ⟨old, hold, hsame⟩ := List.any_eq_true.mp hany
        rw [if_pos hany]
        exact List.mem_map.mpr ⟨old, hold, if_pos hsame⟩
      · rw [if_neg hany]
        exact List.mem_append_right _ List.mem_cons_self
    · exact mem_upsert_of_old hold hsame

theorem filter_upsert_of_ne {same test : α → Bool} {row : α} (rows : List α)
    (hrow : test row = false) (hother : ∀ stored, same stored = true → test stored = false) :
    (upsert same (fun _ => row) row rows).filter test = rows.filter test := by
  have hupdated : (rows.map fun old => if same old then row else old).filter test =
      rows.filter test := by
    induction rows with
    | nil => rfl
    | cons stored rest ih =>
        rw [List.map_cons]
        by_cases hsame : same stored = true
        · rw [if_pos hsame, List.filter_cons_of_neg (by simp [hrow]), ih,
            List.filter_cons_of_neg (by simp [hother stored hsame])]
        · rw [if_neg hsame, List.filter_cons, List.filter_cons, ih]
  unfold upsert
  split
  · exact hupdated
  · rw [List.filter_append, List.filter_singleton, hrow]
    exact List.append_nil _

/-- An upsert by a key keeps the key unique. -/
theorem nodup_upsert {key : α → β} {same : α → Bool} {update : α → α} {row : α}
    {rows : List α} (hsame : ∀ r, same r = true ↔ key r = key row)
    (hupdate : ∀ r, same r = true → key (update r) = key r)
    (h : (rows.map key).Nodup) : ((upsert same update row rows).map key).Nodup := by
  unfold upsert
  by_cases hany : rows.any same = true
  · rw [if_pos hany]
    have hkept : (rows.map fun old => if same old then update old else old).map key =
        rows.map key := map_updateWhere hupdate rows
    rw [hkept]
    exact h
  · rw [if_neg hany, List.map_append, List.nodup_append]
    refine ⟨h, List.nodup_singleton _, ?_⟩
    intro a ha b hb hab
    rw [List.map_singleton, List.mem_singleton] at hb
    obtain ⟨old, hold, rfl⟩ := List.mem_map.mp ha
    exact hany (List.any_eq_true.mpr ⟨old, hold, (hsame old).mpr (hab.trans hb)⟩)

/-- When the update makes the row the new one, the update may be left out. -/
theorem upsert_congr {same : α → Bool} {update : α → α} {row : α} {rows : List α}
    (h : ∀ old ∈ rows, same old = true → update old = row) :
    upsert same update row rows = upsert same (fun _ => row) row rows := by
  unfold upsert
  have hmap : (rows.map fun old => if same old then update old else old) =
      rows.map fun old => if same old then row else old := by
    refine List.map_congr_left fun old hold => ?_
    by_cases hsame : same old = true
    · rw [if_pos hsame, if_pos hsame, h old hold hsame]
    · rw [if_neg hsame, if_neg hsame]
  rw [hmap]

theorem mem_updateWhere {condition : α → Bool} {update : α → α} {r : α}
    {rows : List α} :
    r ∈ updateWhere condition update rows ↔
      ∃ row ∈ rows, (if condition row then update row else row) = r := by
  simp [updateWhere]

end Table

import Mathlib.Tactic

/-!
# Fallible computations

A fallible function is a value of `Except ε`.  This module collects the
rules by which such a computation is taken apart: a successful `bind` is two
successful computations, a guard which succeeded did not fire, and a
successful fold or traversal is a chain of successful steps.
-/

namespace Outcome

variable {ε α β γ : Type}

/-- Fail with `error` when `condition` holds, and otherwise continue. -/
def rejectIf (condition : Prop) [Decidable condition] (error : ε) :
    Except ε Unit :=
  if condition then .error error else .ok ()

@[simp] theorem rejectIf_eq_ok {condition : Prop} [Decidable condition]
    {error : ε} {value : Unit} :
    rejectIf condition error = .ok value ↔ ¬ condition := by
  unfold rejectIf
  split <;> simp_all

theorem rejectIf_of_not {condition : Prop} [Decidable condition]
    {error : ε} (h : ¬ condition) :
    rejectIf condition error = .ok () :=
  rejectIf_eq_ok.mpr h

theorem rejectIf_of {condition : Prop} [Decidable condition]
    {error : ε} (h : condition) :
    rejectIf condition error = .error error := by
  unfold rejectIf
  exact if_pos h

/-- The value of an optional result, or the given error. -/
def okOr (value : Option α) (error : ε) : Except ε α :=
  match value with
  | some value => .ok value
  | none => .error error

@[simp] theorem okOr_some (value : α) (error : ε) :
    okOr (some value) error = .ok value := rfl

@[simp] theorem okOr_none (error : ε) :
    okOr (none : Option α) error = .error error := rfl

@[simp] theorem okOr_eq_ok {value : Option α} {error : ε} {result : α} :
    okOr value error = .ok result ↔ value = some result := by
  cases value <;> simp [okOr]

@[simp] theorem ok_bind (a : α) (f : α → Except ε β) :
    ((.ok a : Except ε α) >>= f) = f a := rfl

@[simp] theorem error_bind (e : ε) (f : α → Except ε β) :
    ((.error e : Except ε α) >>= f) = .error e := rfl

@[simp] theorem bind_eq_ok {x : Except ε α} {f : α → Except ε β} {b : β} :
    (x >>= f) = .ok b ↔ ∃ a, x = .ok a ∧ f a = .ok b := by
  cases x with
  | error e => simp
  | ok a => simp

theorem bind_eq_error {x : Except ε α} {f : α → Except ε β} {e : ε} :
    x >>= f = .error e ↔ x = .error e ∨ ∃ a, x = .ok a ∧ f a = .error e := by
  cases x with
  | error error => simp
  | ok a => simp

@[simp] theorem pure_eq_ok (a : α) : (pure a : Except ε α) = .ok a := rfl

@[simp] theorem throw_eq_error (e : ε) : (throw e : Except ε α) = .error e := rfl

@[simp] theorem map_eq_ok {x : Except ε α} {f : α → β} {b : β} :
    f <$> x = .ok b ↔ ∃ a, x = .ok a ∧ f a = b := by
  cases x with
  | error e => simp [Functor.map, Except.map]
  | ok a => simp [Functor.map, Except.map]

/-! ## Partial correctness -/

/-- If the computation succeeds, its value has the property. -/
def Ensures (x : Except ε α) (property : α → Prop) : Prop :=
  ∀ a, x = .ok a → property a

theorem Ensures.pure {property : α → Prop} {a : α} (h : property a) :
    Ensures (Pure.pure a : Except ε α) property := by
  intro b hb
  cases hb
  exact h

/-- The rule for a step whose own value does not matter. -/
theorem Ensures.bind {x : Except ε α} {f : α → Except ε β} {property : β → Prop}
    (h : ∀ a, Ensures (f a) property) : Ensures (x >>= f) property := by
  intro b hb
  obtain ⟨a, -, ha⟩ := bind_eq_ok.mp hb
  exact h a b ha

/-- The rule for a step with a known postcondition. -/
theorem Ensures.seq {x : Except ε α} {f : α → Except ε β} {middle : α → Prop}
    {property : β → Prop} (hx : Ensures x middle)
    (h : ∀ a, middle a → Ensures (f a) property) : Ensures (x >>= f) property := by
  intro b hb
  obtain ⟨a, ha, hfa⟩ := bind_eq_ok.mp hb
  exact h a (hx a ha) b hfa

/-! ## Success -/

/-- Did the computation succeed? -/
def isOk (x : Except ε α) : Prop :=
  ∃ a, x = .ok a

@[simp] theorem isOk_ok (a : α) : isOk (.ok a : Except ε α) := ⟨a, rfl⟩

@[simp] theorem not_isOk_error (e : ε) : ¬ isOk (.error e : Except ε α) := by
  rintro ⟨a, h⟩
  cases h

@[simp] theorem isOk_bind {x : Except ε α} {f : α → Except ε β} :
    isOk (x >>= f) ↔ ∃ a, x = .ok a ∧ isOk (f a) := by
  cases x with
  | error e => simp
  | ok a => simp

@[simp] theorem isOk_rejectIf {condition : Prop} [Decidable condition]
    {error : ε} :
    isOk (rejectIf condition error) ↔ ¬ condition := by
  constructor
  · rintro ⟨value, h⟩
    exact rejectIf_eq_ok.mp h
  · intro h
    exact ⟨(), rejectIf_of_not h⟩

instance (x : Except ε α) : Decidable (isOk x) :=
  match x with
  | .ok a => isTrue ⟨a, rfl⟩
  | .error e => isFalse (not_isOk_error e)

instance decidableForallOk (x : Except ε α) (p : α → Prop) [DecidablePred p] :
    Decidable (∀ a, x = .ok a → p a) :=
  match x with
  | .ok a => decidable_of_iff (p a) (by simp)
  | .error _ => isTrue (by simp)

/-- Run a check on every element, in order, stopping at the first failure. -/
def forEach (check : α → Except ε Unit) : List α → Except ε Unit
  | [] => .ok ()
  | a :: rest => do
      check a
      forEach check rest

@[simp] theorem forEach_eq_ok {check : α → Except ε Unit} {items : List α}
    {value : Unit} :
    forEach check items = .ok value ↔ ∀ a ∈ items, check a = .ok () := by
  induction items with
  | nil => simp [forEach]
  | cons a rest ih =>
      simp only [forEach, bind_eq_ok, ih, List.mem_cons, forall_eq_or_imp]
      constructor
      · rintro ⟨⟨⟩, ha, hrest⟩
        exact ⟨ha, hrest⟩
      · rintro ⟨ha, hrest⟩
        exact ⟨(), ha, hrest⟩

/-- Map a fallible function over a list, stopping at the first failure. -/
def traverse (f : α → Except ε β) : List α → Except ε (List β)
  | [] => .ok []
  | a :: rest => do
      let b ← f a
      let bs ← traverse f rest
      pure (b :: bs)

theorem traverse_nil (f : α → Except ε β) : traverse f [] = .ok [] := rfl

theorem traverse_cons (f : α → Except ε β) (a : α) (rest : List α) :
    traverse f (a :: rest) = (do
      let b ← f a
      let bs ← traverse f rest
      pure (b :: bs)) := rfl

/-- A traversal succeeds exactly when every element does. -/
theorem isOk_traverse {f : α → Except ε β} {items : List α} :
    isOk (traverse f items) ↔ ∀ a ∈ items, isOk (f a) := by
  induction items with
  | nil => simp [traverse_nil]
  | cons a rest ih =>
      simp only [traverse_cons, isOk_bind, List.mem_cons, forall_eq_or_imp]
      constructor
      · rintro ⟨b, hb, bs, hbs, -⟩
        exact ⟨⟨b, hb⟩, ih.mp ⟨bs, hbs⟩⟩
      · rintro ⟨⟨b, hb⟩, hrest⟩
        obtain ⟨bs, hbs⟩ := ih.mpr hrest
        exact ⟨b, hb, bs, hbs, _, rfl⟩

theorem traverse_eq_ok {f : α → Except ε β} {items : List α} {results : List β} :
    traverse f items = .ok results ↔ items.map f = results.map .ok := by
  induction items generalizing results with
  | nil =>
      simp only [traverse_nil, Except.ok.injEq, List.map_nil]
      rw [eq_comm, eq_comm (a := []), List.map_eq_nil_iff]
  | cons a rest ih =>
      simp only [traverse_cons, bind_eq_ok, pure_eq_ok, Except.ok.injEq, List.map_cons, ih]
      constructor
      · rintro ⟨b, hb, bs, hbs, rfl⟩
        rw [hb, hbs, List.map_cons]
      · intro h
        cases results with
        | nil => simp at h
        | cons b bs =>
            simp only [List.map_cons, List.cons.injEq] at h
            exact ⟨b, h.1, bs, h.2, rfl⟩

theorem traverse_map_ok {f : α → Except ε β} {g : α → β} {items : List α}
    (h : ∀ a ∈ items, f a = .ok (g a)) :
    traverse f items = .ok (items.map g) := by
  induction items with
  | nil => rfl
  | cons a rest ih =>
      have hrest := ih fun b hb => h b (List.mem_cons_of_mem a hb)
      simp [traverse_cons, h a List.mem_cons_self, hrest]

theorem traverse_eq_error {f : α → Except ε β} {items : List α} {e : ε}
    (h : traverse f items = .error e) : ∃ item ∈ items, f item = .error e := by
  induction items with
  | nil => cases h
  | cons first rest ih =>
      simp only [traverse_cons, bind_eq_error] at h
      rcases h with hfirst | ⟨b, -, hrest⟩
      · exact ⟨first, List.mem_cons_self, hfirst⟩
      · rcases hrest with hrest | ⟨results, -, hpure⟩
        · obtain ⟨item, hitem, herror⟩ := ih hrest
          exact ⟨item, List.mem_cons_of_mem _ hitem, herror⟩
        · cases hpure

theorem traverse_congr {f g : α → Except ε β} {items : List α}
    (h : ∀ a ∈ items, f a = g a) : traverse f items = traverse g items := by
  induction items with
  | nil => rfl
  | cons a rest ih =>
      have hrest := ih fun b hb => h b (List.mem_cons_of_mem a hb)
      rw [traverse_cons, traverse_cons, h a List.mem_cons_self, hrest]

/-- The results of a traversal are those of its elements. -/
theorem mem_traverse {f : α → Except ε β} {items : List α} {results : List β}
    (h : traverse f items = .ok results) {b : β} :
    b ∈ results ↔ ∃ a ∈ items, f a = .ok b := by
  have hmap := traverse_eq_ok.mp h
  have hinjective : Function.Injective (Except.ok : β → Except ε β) :=
    fun _ _ => Except.ok.inj
  rw [← List.mem_map_of_injective hinjective, ← hmap, List.mem_map]

/-- What the results of a traversal have in common with its elements. -/
theorem map_traverse {f : α → Except ε β} {g : β → γ} {g' : α → γ}
    (hg : ∀ a b, f a = .ok b → g b = g' a) {items : List α} {results : List β}
    (h : traverse f items = .ok results) : results.map g = items.map g' := by
  rw [traverse_eq_ok] at h
  induction items generalizing results with
  | nil =>
      rw [List.map_nil, eq_comm, List.map_eq_nil_iff] at h
      rw [h]
      rfl
  | cons a rest ih =>
      cases results with
      | nil => cases h
      | cons b others =>
          rw [List.map_cons, List.map_cons, List.cons.injEq] at h
          rw [List.map_cons, List.map_cons, hg a b h.1, ih h.2]

/-- Keep the elements for which a fallible test holds. -/
def filterOk (test : α → Except ε Bool) : List α → Except ε (List α)
  | [] => .ok []
  | a :: rest => do
      let keep ← test a
      let kept ← filterOk test rest
      pure (if keep then a :: kept else kept)

theorem filterOk_nil (test : α → Except ε Bool) : filterOk test [] = .ok [] := rfl

theorem filterOk_cons (test : α → Except ε Bool) (a : α) (rest : List α) :
    filterOk test (a :: rest) = (do
      let keep ← test a
      let kept ← filterOk test rest
      pure (if keep then a :: kept else kept)) := rfl

theorem isOk_filterOk {test : α → Except ε Bool} {items : List α}
    (h : ∀ a ∈ items, isOk (test a)) :
    isOk (filterOk test items) := by
  induction items with
  | nil => exact isOk_ok []
  | cons a rest ih =>
      obtain ⟨keep, hkeep⟩ := h a List.mem_cons_self
      obtain ⟨kept, hkept⟩ := ih fun b hb => h b (List.mem_cons_of_mem a hb)
      exact ⟨_, by simp [filterOk_cons, hkeep, hkept]; rfl⟩

theorem filterOk_of_ok {test : α → Except ε Bool} {f : α → Bool}
    {items : List α} (h : ∀ a ∈ items, test a = .ok (f a)) :
    filterOk test items = .ok (items.filter f) := by
  induction items with
  | nil => rfl
  | cons a rest ih =>
      have hrest := ih fun b hb => h b (List.mem_cons_of_mem a hb)
      simp only [filterOk_cons, h a List.mem_cons_self, hrest, ok_bind, pure_eq_ok,
        List.filter_cons]

theorem mem_of_filterOk {test : α → Except ε Bool} {items kept : List α} {a : α}
    (h : filterOk test items = .ok kept) (ha : a ∈ kept) : a ∈ items := by
  induction items generalizing kept with
  | nil =>
      rw [filterOk_nil, Except.ok.injEq] at h
      rwa [h]
  | cons b rest ih =>
      simp only [filterOk_cons, bind_eq_ok, pure_eq_ok, Except.ok.injEq] at h
      obtain ⟨keep, -, others, hothers, rfl⟩ := h
      by_cases hkeep : keep = true
      · rw [if_pos hkeep] at ha
        cases ha with
        | head => exact List.mem_cons_self
        | tail _ ha => exact List.mem_cons_of_mem b (ih hothers ha)
      · rw [if_neg hkeep] at ha
        exact List.mem_cons_of_mem b (ih hothers ha)

theorem filterOk_congr {test other : α → Except ε Bool} {items : List α}
    (h : ∀ a ∈ items, test a = other a) : filterOk test items = filterOk other items := by
  induction items with
  | nil => rfl
  | cons a rest ih =>
      have hrest := ih fun b hb => h b (List.mem_cons_of_mem a hb)
      rw [filterOk_cons, filterOk_cons, h a List.mem_cons_self, hrest]

/-- What follows a filter can depend only on what it kept. -/
theorem filterOk_bind_congr {test other : α → Except ε Bool} {items : List α}
    {f g : List α → Except ε β} (h : ∀ a ∈ items, test a = other a)
    (hrest : ∀ kept : List α, (∀ a ∈ kept, a ∈ items) → f kept = g kept) :
    (filterOk test items >>= f) = (filterOk other items >>= g) := by
  rw [filterOk_congr h]
  cases hkept : filterOk other items with
  | error e => rfl
  | ok kept =>
      rw [ok_bind, ok_bind]
      exact hrest kept fun a ha => mem_of_filterOk hkept ha

/-- An element which fails the test can be left out. -/
theorem filterOk_concat_of_false {test : α → Except ε Bool} {items : List α} {a : α}
    (h : test a = .ok false) : filterOk test (items ++ [a]) = filterOk test items := by
  induction items with
  | nil => simp [filterOk_cons, filterOk_nil, h]
  | cons b rest ih => rw [List.cons_append, filterOk_cons, filterOk_cons, ih]

/-- Thread a state through a list of fallible updates. -/
def foldState (f : α → β → Except ε α) : α → List β → Except ε α
  | state, [] => .ok state
  | state, b :: rest => do
      let next ← f state b
      foldState f next rest

theorem foldState_nil (f : α → β → Except ε α) (state : α) :
    foldState f state [] = .ok state := rfl

theorem foldState_cons (f : α → β → Except ε α) (state : α) (b : β) (rest : List β) :
    foldState f state (b :: rest) = (f state b >>= fun next => foldState f next rest) := rfl

theorem foldState_append (f : α → β → Except ε α) (state : α)
    (first second : List β) :
    foldState f state (first ++ second) =
      (foldState f state first >>= fun next => foldState f next second) := by
  induction first generalizing state with
  | nil => rfl
  | cons b rest ih =>
      rw [List.cons_append]
      simp only [foldState_cons]
      cases f state b with
      | error e => rfl
      | ok next => exact ih next

/-- An invariant kept by every successful step holds after a successful
fold. -/
theorem foldState_invariant {f : α → β → Except ε α} {invariant : α → Prop}
    (hstep : ∀ state b next,
      invariant state → f state b = .ok next → invariant next)
    {state final : α} {items : List β}
    (hstate : invariant state)
    (hrun : foldState f state items = .ok final) :
    invariant final := by
  induction items generalizing state with
  | nil =>
      simp only [foldState_nil, Except.ok.injEq] at hrun
      exact hrun ▸ hstate
  | cons b rest ih =>
      simp only [foldState_cons, bind_eq_ok] at hrun
      obtain ⟨next, hnext, hrest⟩ := hrun
      exact ih (hstep state b next hstate hnext) hrest

end Outcome

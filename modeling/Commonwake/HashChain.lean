import Mathlib.Tactic

/-!
# Numbered and linked chains

A log is a list of entries which are numbered without a gap and in which
every entry carries the hash of its predecessor.  Two chains which end in
the same hash agree backwards from there, entry by entry, for as long as
both last.
-/

namespace HashChain

variable {α β η : Type}

/-- The entries carry the consecutive numbers after `start`. -/
def Numbered (number : α → ℤ) : ℤ → List α → Prop
  | _, [] => True
  | start, a :: rest => number a = start + 1 ∧ Numbered number (start + 1) rest

/-- The first entry carries `head`, and every other one the hash of the
entry before it. -/
def Linked (link hash : α → η) : η → List α → Prop
  | _, [] => True
  | head, a :: rest => link a = head ∧ Linked link hash (hash a) rest

/-- The hash of the last entry, or `head` when there is none. -/
def lastHash (hash : α → η) (head : η) (entries : List α) : η :=
  match entries.getLast? with
  | some a => hash a
  | none => head

/-! ## The last hash -/

@[simp] theorem lastHash_nil (hash : α → η) (head : η) :
    lastHash hash head [] = head := rfl

@[simp] theorem lastHash_append_singleton (hash : α → η) (head : η)
    (entries : List α) (a : α) :
    lastHash hash head (entries ++ [a]) = hash a := by
  simp [lastHash]

@[simp] theorem lastHash_cons (hash : α → η) (head : η) (a : α)
    (rest : List α) :
    lastHash hash head (a :: rest) = lastHash hash (hash a) rest := by
  unfold lastHash
  cases h : rest.getLast? with
  | none =>
      rw [List.getLast?_eq_none_iff] at h
      subst h
      rfl
  | some b =>
      have hne : rest ≠ [] := by
        rintro rfl
        simp at h
      rw [List.getLast?_cons, h]
      rfl

theorem lastHash_append (hash : α → η) (head : η) (first second : List α) :
    lastHash hash head (first ++ second) =
      lastHash hash (lastHash hash head first) second := by
  induction first generalizing head with
  | nil => rfl
  | cons a rest ih => rw [List.cons_append, lastHash_cons, lastHash_cons, ih]

theorem lastHash_map {γ : Type} (hash : α → η) (f : η → γ) (head : η)
    (entries : List α) :
    lastHash (fun a => f (hash a)) (f head) entries = f (lastHash hash head entries) := by
  unfold lastHash
  cases entries.getLast? with
  | none => rfl
  | some a => rfl

/-- The last hash depends on the hashes only. -/
theorem lastHash_eq_map (hash : α → η) (head : η) (entries : List α) :
    lastHash hash head entries = lastHash id head (entries.map hash) := by
  unfold lastHash
  rw [List.getLast?_map]
  cases entries.getLast? with
  | none => rfl
  | some a => rfl

theorem lastHash_of_ne_nil (hash : α → η) (head head' : η) {entries : List α}
    (h : entries ≠ []) :
    lastHash hash head entries = lastHash hash head' entries := by
  cases entries with
  | nil => exact absurd rfl h
  | cons a rest => rw [lastHash_cons, lastHash_cons]

/-! ## Numbers -/

theorem Numbered.append {number : α → ℤ} {start : ℤ} {first second : List α} :
    Numbered number start (first ++ second) ↔
      Numbered number start first ∧
        Numbered number (start + first.length) second := by
  induction first generalizing start with
  | nil => simp [Numbered]
  | cons a rest ih =>
      have hshift : start + ((a :: rest).length : ℤ) = start + 1 + rest.length := by
        push_cast [List.length_cons]
        ring
      rw [hshift]
      simp only [List.cons_append, Numbered, ih, and_assoc]

theorem Numbered.mem_bounds {number : α → ℤ} {start : ℤ} {entries : List α}
    (hnum : Numbered number start entries) {a : α} (ha : a ∈ entries) :
    start < number a ∧ number a ≤ start + entries.length := by
  induction entries generalizing start with
  | nil => cases ha
  | cons b rest ih =>
      obtain ⟨hb, hrest⟩ := hnum
      rw [List.length_cons]
      rcases List.mem_cons.mp ha with rfl | hmem
      · push_cast
        omega
      · have hbounds := ih hrest hmem
        push_cast
        omega

/-- The numbers of a chain are a range of integers, in order. -/
theorem Numbered.map_number {number : α → ℤ} {start : ℤ} {entries : List α}
    (hnum : Numbered number start entries) :
    entries.map number =
      (List.range entries.length).map fun i : ℕ => start + 1 + i := by
  induction entries generalizing start with
  | nil => rfl
  | cons a rest ih =>
      obtain ⟨ha, hrest⟩ := hnum
      rw [List.map_cons, ih hrest, List.length_cons, List.range_succ_eq_map,
        List.map_cons, List.map_map, ha]
      congr 1
      · simp
      · refine List.map_congr_left fun i _ => ?_
        simp only [Function.comp_apply]
        push_cast
        ring

/-- A chain with the numbers of another one. -/
theorem Numbered.of_map_eq {α β : Type} {numberA : α → ℤ} {numberB : β → ℤ} {start : ℤ}
    {first : List α} {second : List β} (h : Numbered numberB start second)
    (hmap : first.map numberA = second.map numberB) : Numbered numberA start first := by
  induction second generalizing start first with
  | nil =>
      rw [List.map_nil, List.map_eq_nil_iff] at hmap
      rw [hmap]
      trivial
  | cons b rest ih =>
      cases first with
      | nil => cases hmap
      | cons a others =>
          rw [List.map_cons, List.map_cons, List.cons.injEq] at hmap
          exact ⟨hmap.1.trans h.1, ih h.2 hmap.2⟩

/-- The number of the last entry. -/
theorem Numbered.lastHash_eq {number : α → ℤ} {start : ℤ} {entries : List α}
    (hnum : Numbered number start entries) :
    lastHash number start entries = start + entries.length := by
  induction entries generalizing start with
  | nil => simp
  | cons a rest ih =>
      obtain ⟨ha, hrest⟩ := hnum
      rw [lastHash_cons, ha, ih hrest, List.length_cons]
      push_cast
      ring

/-- The entry with a given number is found at its place. -/
theorem Numbered.find?_eq {number : α → ℤ} {start : ℤ} {entries : List α}
    (hnum : Numbered number start entries) {n : ℤ} {k : ℕ}
    (hn : n = start + 1 + k) :
    (entries.find? fun a => number a == n) = entries[k]? := by
  induction entries generalizing start k with
  | nil => rfl
  | cons a rest ih =>
      obtain ⟨ha, hrest⟩ := hnum
      cases k with
      | zero =>
          have heq : (number a == n) = true := by
            rw [beq_iff_eq, ha, hn]
            simp
          simp [heq]
      | succ k =>
          have hne : (number a == n) = false := by
            rw [beq_eq_false_iff_ne, ha, hn]
            push_cast
            omega
          have hnext : n = start + 1 + 1 + k := by
            rw [hn]
            push_cast
            ring
          rw [List.find?_cons, hne, List.getElem?_cons_succ]
          exact ih hrest hnext

/-- The chain up to an entry ends in the hash of that entry. -/
theorem Numbered.lastHash_take {number : α → ℤ} {start : ℤ} {entries : List α}
    (hnum : Numbered number start entries) {a : α} (ha : a ∈ entries)
    (hash : α → η) (head : η) :
    lastHash hash head (entries.take (number a - start).toNat) = hash a := by
  induction entries generalizing start head with
  | nil => cases ha
  | cons b rest ih =>
      obtain ⟨hb, hrest⟩ := hnum
      rcases List.mem_cons.mp ha with rfl | hmem
      · have hone : (number a - start).toNat = 1 := by omega
        rw [hone]
        rfl
      · have hbounds := hrest.mem_bounds hmem
        have hsucc : (number a - start).toNat = (number a - (start + 1)).toNat + 1 := by
          omega
        rw [hsucc, List.take_succ_cons, lastHash_cons]
        exact ih hrest hmem (hash b)

theorem Numbered.drop {number : α → ℤ} {start : ℤ} {entries : List α}
    (hnum : Numbered number start entries) (k : ℕ) :
    Numbered number (start + k) (entries.drop k) := by
  induction entries generalizing start k with
  | nil =>
      rw [List.drop_nil]
      exact trivial
  | cons a rest ih =>
      cases k with
      | zero => simpa using hnum
      | succ k =>
          have hshift : start + ((k + 1 : ℕ) : ℤ) = start + 1 + (k : ℤ) := by
            push_cast
            ring
          rw [hshift, List.drop_succ_cons]
          exact ih hnum.2 k

theorem Numbered.take {number : α → ℤ} {start : ℤ} {entries : List α}
    (hnum : Numbered number start entries) (k : ℕ) :
    Numbered number start (entries.take k) := by
  rw [← List.take_append_drop k entries, Numbered.append] at hnum
  exact hnum.1

/-- The entries inside a window of numbers stand side by side. -/
theorem Numbered.filter_window {number : α → ℤ} {start : ℤ} {entries : List α}
    (hnum : Numbered number start entries) (k m : ℕ) :
    (entries.filter fun a => decide (start + k < number a ∧ number a ≤ start + k + m)) =
      (entries.drop k).take m := by
  induction entries generalizing start k m with
  | nil => simp
  | cons a rest ih =>
      obtain ⟨ha, hrest⟩ := hnum
      cases k with
      | zero =>
          cases m with
          | zero =>
              have hempty : ∀ b ∈ rest, ¬ decide (start + ((0 : ℕ) : ℤ) < number b ∧
                  number b ≤ start + ((0 : ℕ) : ℤ) + ((0 : ℕ) : ℤ)) = true := by
                intro b _
                rw [decide_eq_true_iff]
                omega
              rw [List.filter_cons_of_neg (by simp), List.take_zero,
                List.filter_eq_nil_iff.mpr hempty]
          | succ m =>
              have hfirst : start + ((0 : ℕ) : ℤ) < number a ∧
                  number a ≤ start + ((0 : ℕ) : ℤ) + ((m + 1 : ℕ) : ℤ) := by
                push_cast
                omega
              have hwindow : ∀ b ∈ rest, decide (start + ((0 : ℕ) : ℤ) < number b ∧
                  number b ≤ start + ((0 : ℕ) : ℤ) + ((m + 1 : ℕ) : ℤ)) =
                  decide (start + 1 + ((0 : ℕ) : ℤ) < number b ∧
                    number b ≤ start + 1 + ((0 : ℕ) : ℤ) + (m : ℤ)) := by
                intro b hb
                have hbounds := (hrest.mem_bounds hb).1
                rw [decide_eq_decide]
                push_cast
                omega
              rw [List.filter_cons_of_pos (by simpa using hfirst),
                List.filter_congr hwindow, ih hrest 0 m]
              rfl
      | succ k =>
          have hfirst : ¬ (start + ((k + 1 : ℕ) : ℤ) < number a ∧
              number a ≤ start + ((k + 1 : ℕ) : ℤ) + (m : ℤ)) := by
            push_cast
            omega
          have hshift : start + ((k + 1 : ℕ) : ℤ) = start + 1 + (k : ℤ) := by
            push_cast
            ring
          rw [List.filter_cons_of_neg (by simpa using hfirst), hshift, ih hrest k m]
          rfl

/-- The entries after a number. -/
theorem Numbered.filter_gt {number : α → ℤ} {start : ℤ} {entries : List α}
    (hnum : Numbered number start entries) (k : ℕ) :
    (entries.filter fun a => decide (start + k < number a)) = entries.drop k := by
  have hwindow := hnum.filter_window k entries.length
  rw [List.take_of_length_le (by rw [List.length_drop]; omega)] at hwindow
  rw [← hwindow]
  refine List.filter_congr fun a ha => ?_
  have hbounds := (hnum.mem_bounds ha).2
  rw [decide_eq_decide]
  omega

/-- Chains which are related entry by entry, as far as their numbers agree,
and begin at the same number, are related number by number. -/
theorem Numbered.forall₂ {numberA : α → ℤ} {numberB : β → ℤ} {R : α → β → Prop}
    {start : ℤ} {first : List α} {second : List β}
    (hrelated : List.Forall₂ (fun a b => numberA a = numberB b → R a b) first second)
    (hfirst : Numbered numberA start first) (hsecond : Numbered numberB start second) :
    List.Forall₂ R first second := by
  induction hrelated generalizing start with
  | nil => exact .nil
  | cons hsame _ ih =>
      refine .cons (hsame ?_) (ih hfirst.2 hsecond.2)
      rw [hfirst.1, hsecond.1]

/-! ## Links -/

theorem Linked.append {link hash : α → η} {head : η} {first second : List α} :
    Linked link hash head (first ++ second) ↔
      Linked link hash head first ∧
        Linked link hash (lastHash hash head first) second := by
  induction first generalizing head with
  | nil => simp [Linked]
  | cons a rest ih =>
      rw [List.cons_append, lastHash_cons]
      simp only [Linked, ih, and_assoc]

/-- Links and hashes may be compared through any reading of them. -/
theorem Linked.map {γ : Type} {link hash : α → η} {head : η} {entries : List α}
    (f : η → γ) (hlinked : Linked link hash head entries) :
    Linked (fun a => f (link a)) (fun a => f (hash a)) (f head) entries := by
  induction entries generalizing head with
  | nil => exact trivial
  | cons a rest ih =>
      obtain ⟨hlink, hrest⟩ := hlinked
      exact ⟨congrArg f hlink, ih hrest⟩

theorem Linked.head_eq {link hash : α → η} {head : η} {a : α} {rest : List α}
    (hlinked : Linked link hash head (a :: rest)) : link a = head :=
  hlinked.1

/-! ## Chains which end in the same hash -/

/-- Suppose that entries with the same hash are related and carry the same
link.  Then a chain which ends in the hash of a longer chain is, entry by
entry, the end of that chain, and it begins where that end begins. -/
theorem Linked.suffix_of_lastHash_eq
    {linkA hashA : α → η} {linkB hashB : β → η} {R : α → β → Prop}
    {headA headB : η} {entries : List α} {log : List β}
    (hentries : Linked linkA hashA headA entries)
    (hlog : Linked linkB hashB headB log)
    (hsame : ∀ a ∈ entries, ∀ b ∈ log, hashA a = hashB b →
      R a b ∧ linkA a = linkB b)
    (hlength : entries.length ≤ log.length)
    (hlast : entries ≠ [] →
      lastHash hashA headA entries = lastHash hashB headB log) :
    ∃ before after, log = before ++ after ∧ List.Forall₂ R entries after ∧
      (entries ≠ [] → headA = lastHash hashB headB before) := by
  -- The induction peels both chains from the end.
  induction entries using List.reverseRecOn generalizing log with
  | nil => exact ⟨log, [], by simp, List.Forall₂.nil, fun h => absurd rfl h⟩
  | append_singleton entries a ih =>
      have hlognil : log ≠ [] := by
        rintro rfl
        simp at hlength
      obtain ⟨front, b, rfl⟩ : ∃ front b, log = front ++ [b] :=
        ⟨log.dropLast, log.getLast hlognil, (List.dropLast_append_getLast hlognil).symm⟩
      have hhash : hashA a = hashB b := by
        have h := hlast (by simp)
        rwa [lastHash_append_singleton, lastHash_append_singleton] at h
      obtain ⟨hrel, hlink⟩ := hsame a (by simp) b (by simp) hhash
      obtain ⟨hfront, hb⟩ := Linked.append.mp hlog
      obtain ⟨hinit, ha⟩ := Linked.append.mp hentries
      have hlinks : lastHash hashA headA entries = lastHash hashB headB front := by
        rw [← ha.head_eq, ← hb.head_eq, hlink]
      have hshorter : entries.length ≤ front.length := by
        simpa using hlength
      obtain ⟨before, after, hsplit, hforall, hbefore⟩ := ih hinit hfront
        (fun x hx y hy => hsame x (List.mem_append_left _ hx) y
          (List.mem_append_left _ hy)) hshorter fun _ => hlinks
      refine ⟨before, after ++ [b], by rw [hsplit, List.append_assoc], ?_, ?_⟩
      · exact List.rel_append hforall (List.Forall₂.cons hrel List.Forall₂.nil)
      · intro _
        by_cases hnil : entries = []
        · subst hnil
          rw [List.forall₂_nil_left_iff] at hforall
          subst hforall
          rw [hsplit, List.append_nil] at hlinks
          simpa using hlinks
        · exact hbefore hnil

/-- Chains of the same length which begin and end in the same hash are related
entry by entry. -/
theorem Linked.forall₂_of_lastHash_eq
    {linkA hashA : α → η} {linkB hashB : β → η} {R : α → β → Prop} {head : η}
    {first : List α} {second : List β}
    (hfirst : Linked linkA hashA head first) (hsecond : Linked linkB hashB head second)
    (hsame : ∀ a ∈ first, ∀ b ∈ second, hashA a = hashB b → R a b ∧ linkA a = linkB b)
    (hlength : first.length = second.length)
    (hlast : lastHash hashA head first = lastHash hashB head second) :
    List.Forall₂ R first second := by
  obtain ⟨before, after, hsplit, hrelated, -⟩ :=
    hfirst.suffix_of_lastHash_eq hsecond hsame hlength.le fun _ => hlast
  have hempty : before = [] := by
    have hsum := congrArg List.length hsplit
    rw [List.length_append, ← hrelated.length_eq, hlength] at hsum
    exact List.eq_nil_of_length_eq_zero (by omega)
  rw [hempty, List.nil_append] at hsplit
  rwa [hsplit]

end HashChain

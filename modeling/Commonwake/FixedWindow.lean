import Mathlib.Tactic

/-!
# Windows of fixed length

A window counts what is taken from it.  An attempt at its end or later begins a new
window at the instant of the attempt.  Any interval of the length of a window meets
at most two windows, so at most twice the limit of a window is taken in it.
-/

namespace FixedWindow

/-- When a window began, and what was taken since then. -/
structure Window (τ : Type*) where
  started : τ
  taken : ℕ

structure Attempt (τ : Type*) where
  time : τ
  takes : Bool

/-- An attempt with the window which it meets. -/
structure Turn (τ : Type*) where
  window : Window τ
  attempt : Attempt τ

section

variable {τ : Type*} [LinearOrder τ] [Add τ] (length : τ) (limit : ℕ)

/-- The window is over at the instant. -/
def Window.Elapsed (window : Window τ) (time : τ) : Prop :=
  window.started + length ≤ time

instance (window : Window τ) (time : τ) : Decidable (window.Elapsed length time) :=
  inferInstanceAs (Decidable (_ ≤ _))

/-- The window from which an attempt at the instant takes. -/
def Window.refresh (window : Window τ) (time : τ) : Window τ :=
  if window.Elapsed length time then ⟨time, 0⟩ else window

def Window.step (window : Window τ) (attempt : Attempt τ) : Window τ :=
  let current := window.refresh length attempt.time
  ⟨current.started, current.taken + attempt.takes.toNat⟩

/-- The turns follow one another, from the given window on. -/
def RunsFrom : Window τ → List (Turn τ) → Prop
  | _, [] => True
  | window, turn :: rest =>
      turn.window = window ∧ RunsFrom (window.step length turn.attempt) rest

/-- Something is taken only from a window which has not reached its limit. -/
def Turn.HasRoom (turn : Turn τ) : Prop :=
  turn.attempt.takes = true →
    (turn.window.refresh length turn.attempt.time).taken < limit

def Turn.Resets (turn : Turn τ) : Prop :=
  turn.window.Elapsed length turn.attempt.time

/-- What is taken in a list of turns. -/
def taken (turns : List (Turn τ)) : ℕ :=
  turns.countP fun turn => turn.attempt.takes

/-- What is taken from an instant on, for the length of a window. -/
def takenWithin (start : τ) (turns : List (Turn τ)) : ℕ :=
  turns.countP fun turn => turn.attempt.takes && decide (start ≤ turn.attempt.time) &&
    decide (turn.attempt.time < start + length)

end

section

variable {τ : Type*} [LinearOrder τ] [Add τ] {length start : τ} {limit : ℕ}
  {window : Window τ} {turn : Turn τ} {before rest turns : List (Turn τ)}

/-! ## One window -/

omit [LinearOrder τ] [Add τ] in
theorem taken_cons (turn : Turn τ) (rest : List (Turn τ)) :
    taken (turn :: rest) = turn.attempt.takes.toNat + taken rest := by
  unfold taken
  rw [List.countP_cons]
  cases turn.attempt.takes with
  | false => simp
  | true => simp [Nat.add_comm]

theorem Window.takes_le_step (length : τ) (window : Window τ) (attempt : Attempt τ) :
    attempt.takes.toNat ≤ (window.step length attempt).taken :=
  Nat.le_add_left _ _

theorem Window.step_of_not_elapsed {attempt : Attempt τ}
    (h : ¬ window.Elapsed length attempt.time) :
    window.step length attempt =
      ⟨window.started, window.taken + attempt.takes.toNat⟩ := by
  unfold Window.step Window.refresh
  rw [if_neg h]

/-- No window gives out more than its limit. -/
theorem Turn.HasRoom.step_taken_le (hroom : turn.HasRoom length limit)
    (hlimit : turn.window.taken ≤ limit) :
    (turn.window.step length turn.attempt).taken ≤ limit := by
  have hrefresh : (turn.window.refresh length turn.attempt.time).taken ≤ limit := by
    unfold Window.refresh
    split
    · exact Nat.zero_le limit
    · exact hlimit
  unfold Turn.HasRoom at hroom
  unfold Window.step
  cases htakes : turn.attempt.takes with
  | false => exact hrefresh
  | true => exact hroom htakes

/-- Wherever a run is cut, the window has not exceeded its limit. -/
theorem RunsFrom.drop (hruns : RunsFrom length window (before ++ rest))
    (hroom : ∀ turn ∈ before, turn.HasRoom length limit) (hlimit : window.taken ≤ limit) :
    ∃ current : Window τ, current.taken ≤ limit ∧ RunsFrom length current rest := by
  induction before generalizing window with
  | nil => exact ⟨window, hlimit, hruns⟩
  | cons turn before ih =>
      obtain ⟨rfl, hnext⟩ := hruns
      have hturn := hroom turn List.mem_cons_self
      exact ih hnext (fun other hother => hroom other (List.mem_cons_of_mem turn hother))
        (hturn.step_taken_le hlimit)

theorem RunsFrom.left (hruns : RunsFrom length window (before ++ rest)) :
    RunsFrom length window before := by
  induction before generalizing window with
  | nil => trivial
  | cons turn before ih => exact ⟨hruns.1, ih hruns.2⟩

/-- No turn meets a window which has exceeded its limit, or leaves one behind. -/
theorem RunsFrom.step_taken_le (hruns : RunsFrom length window turns)
    (hroom : ∀ turn ∈ turns, turn.HasRoom length limit) (hlimit : window.taken ≤ limit)
    (hturn : turn ∈ turns) : (turn.window.step length turn.attempt).taken ≤ limit := by
  obtain ⟨before, rest, rfl⟩ := List.append_of_mem hturn
  obtain ⟨current, hcurrent, hwindow, -⟩ := hruns.drop
    (fun other hother => hroom other (List.mem_append_left _ hother)) hlimit
  rw [← hwindow] at hcurrent
  exact (hroom turn hturn).step_taken_le hcurrent

/-- Turns which do not begin a new window share what is left of the present one. -/
theorem RunsFrom.taken_le (hruns : RunsFrom length window turns)
    (hroom : ∀ turn ∈ turns, turn.HasRoom length limit) (hlimit : window.taken ≤ limit)
    (hquiet : ∀ turn ∈ turns, ¬ turn.Resets length) :
    window.taken + taken turns ≤ limit := by
  induction turns generalizing window with
  | nil => exact hlimit
  | cons turn rest ih =>
      obtain ⟨rfl, hnext⟩ := hruns
      have hturn := hroom turn List.mem_cons_self
      have hrest := ih hnext (fun other hother => hroom other (List.mem_cons_of_mem turn hother))
        (hturn.step_taken_le hlimit)
        (fun other hother => hquiet other (List.mem_cons_of_mem turn hother))
      have hstep := Window.step_of_not_elapsed (hquiet turn List.mem_cons_self)
      rw [hstep] at hrest
      rw [taken_cons]
      simp only at hrest
      omega

/-- At most the limit is taken between two resets: the first turn may begin a window. -/
theorem RunsFrom.taken_between_le (hruns : RunsFrom length window (before ++ turns ++ rest))
    (hroom : ∀ turn ∈ before ++ turns, turn.HasRoom length limit)
    (hlimit : window.taken ≤ limit)
    (hquiet : ∀ turn ∈ turns.tail, ¬ turn.Resets length) : taken turns ≤ limit := by
  obtain ⟨current, hcurrent, hturns⟩ := hruns.left.drop
    (fun turn hturn => hroom turn (List.mem_append_left turns hturn)) hlimit
  cases turns with
  | nil => exact Nat.zero_le limit
  | cons turn rest =>
      obtain ⟨rfl, hnext⟩ := hturns
      have hturn := hroom turn (List.mem_append_right before List.mem_cons_self)
      have hrest := hnext.taken_le
        (fun other hother => hroom other
          (List.mem_append_right before (List.mem_cons_of_mem turn hother)))
        (hturn.step_taken_le hcurrent) hquiet
      have htakes := turn.window.takes_le_step length turn.attempt
      rw [taken_cons]
      omega

/-! ## Intervals -/

theorem takenWithin_cons_le (length start : τ) (turn : Turn τ) (rest : List (Turn τ)) :
    takenWithin length start (turn :: rest) ≤
      turn.attempt.takes.toNat + takenWithin length start rest := by
  unfold takenWithin
  rw [List.countP_cons]
  cases turn.attempt.takes with
  | false => simp
  | true =>
      simp only [Bool.true_and, Bool.toNat_true]
      split
      · omega
      · omega

theorem takenWithin_of_late
    (h : ∀ turn ∈ turns, start + length ≤ turn.attempt.time) :
    takenWithin length start turns = 0 := by
  unfold takenWithin
  rw [List.countP_eq_zero]
  intro turn hturn
  have hlate := h turn hturn
  simp [hlate]

variable [AddRightMono τ]

/-- A window which begins in an interval outlasts it. -/
theorem RunsFrom.takenWithin_le_of_started (hruns : RunsFrom length window turns)
    (hroom : ∀ turn ∈ turns, turn.HasRoom length limit) (hlimit : window.taken ≤ limit)
    (hsorted : turns.Pairwise fun turn later => turn.attempt.time ≤ later.attempt.time)
    (hstarted : start ≤ window.started) :
    window.taken + takenWithin length start turns ≤ limit := by
  induction turns generalizing window with
  | nil => exact hlimit
  | cons turn rest ih =>
      obtain ⟨hlater, hsorted⟩ := List.pairwise_cons.mp hsorted
      by_cases htime : turn.attempt.time < start + length
      · obtain ⟨rfl, hnext⟩ := hruns
        have hend : start + length ≤ turn.window.started + length := by gcongr
        have helapsed : ¬ turn.window.Elapsed length turn.attempt.time :=
          not_le.mpr (htime.trans_le hend)
        have hturn := hroom turn List.mem_cons_self
        have hstep := Window.step_of_not_elapsed helapsed
        have hrest := ih hnext
          (fun other hother => hroom other (List.mem_cons_of_mem turn hother))
          (hturn.step_taken_le hlimit) hsorted (by rw [hstep]; exact hstarted)
        have hhead := takenWithin_cons_le length start turn rest
        rw [hstep] at hrest
        simp only at hrest
        omega
      · have hlate : ∀ other ∈ turn :: rest, start + length ≤ other.attempt.time := by
          intro other hother
          rcases List.mem_cons.mp hother with rfl | hrest
          · exact not_lt.mp htime
          · exact (not_lt.mp htime).trans (hlater other hrest)
        rw [takenWithin_of_late hlate]
        exact hlimit

/-- From an instant on, what is left of the present window and the next one can be taken. -/
theorem RunsFrom.takenWithin_le_of_from (hruns : RunsFrom length window turns)
    (hroom : ∀ turn ∈ turns, turn.HasRoom length limit) (hlimit : window.taken ≤ limit)
    (hsorted : turns.Pairwise fun turn later => turn.attempt.time ≤ later.attempt.time)
    (hfrom : ∀ turn ∈ turns, start ≤ turn.attempt.time) :
    window.taken + takenWithin length start turns ≤ 2 * limit := by
  induction turns generalizing window with
  | nil =>
      change window.taken ≤ 2 * limit
      omega
  | cons turn rest ih =>
      obtain ⟨-, hsorted⟩ := List.pairwise_cons.mp hsorted
      obtain ⟨rfl, hnext⟩ := hruns
      have hturn := hroom turn List.mem_cons_self
      have hrooms : ∀ other ∈ rest, other.HasRoom length limit :=
        fun other hother => hroom other (List.mem_cons_of_mem turn hother)
      have hstep := hturn.step_taken_le hlimit
      have hhead := takenWithin_cons_le length start turn rest
      by_cases helapsed : turn.window.Elapsed length turn.attempt.time
      · have hstarted : start ≤ (turn.window.step length turn.attempt).started := by
          unfold Window.step Window.refresh
          rw [if_pos helapsed]
          exact hfrom turn List.mem_cons_self
        have hrest := hnext.takenWithin_le_of_started hrooms hstep hsorted hstarted
        have htakes := turn.window.takes_le_step length turn.attempt
        omega
      · have hrest := ih hnext hrooms hstep hsorted
          (fun other hother => hfrom other (List.mem_cons_of_mem turn hother))
        rw [Window.step_of_not_elapsed helapsed] at hrest
        simp only at hrest
        omega

/-- In an interval of the length of a window at most twice the limit is taken. -/
theorem RunsFrom.takenWithin_le (hruns : RunsFrom length window turns)
    (hroom : ∀ turn ∈ turns, turn.HasRoom length limit) (hlimit : window.taken ≤ limit)
    (hsorted : turns.Pairwise fun turn later => turn.attempt.time ≤ later.attempt.time)
    (start : τ) : takenWithin length start turns ≤ 2 * limit := by
  induction turns generalizing window with
  | nil => exact Nat.zero_le _
  | cons turn rest ih =>
      by_cases htime : start ≤ turn.attempt.time
      · have hfrom : ∀ other ∈ turn :: rest, start ≤ other.attempt.time := by
          intro other hother
          rcases List.mem_cons.mp hother with rfl | hrest
          · exact htime
          · exact htime.trans ((List.pairwise_cons.mp hsorted).1 other hrest)
        have hall := hruns.takenWithin_le_of_from hroom hlimit hsorted hfrom
        omega
      · obtain ⟨rfl, hnext⟩ := hruns
        have hturn := hroom turn List.mem_cons_self
        have hskip : takenWithin length start (turn :: rest) =
            takenWithin length start rest := by
          unfold takenWithin
          rw [List.countP_cons]
          simp [htime]
        rw [hskip]
        exact ih hnext (fun other hother => hroom other (List.mem_cons_of_mem turn hother))
          (hturn.step_taken_le hlimit) (List.pairwise_cons.mp hsorted).2

end

end FixedWindow

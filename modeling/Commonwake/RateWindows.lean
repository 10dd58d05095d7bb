import Commonwake.FixedWindow

/-!
# The rate windows of the public edge

The edge counts all requests in a second, the writes in a minute, and the results of
volunteers in an hour.  One call of `RateWindows::check` first begins anew the windows
which are over; then it may reject the call at one of three points, and counts it only
when it passes them all.  Instants are the nanoseconds of a monotonic clock.
-/

namespace Commonwake

/-- The reasons for which a call is rejected. -/
inductive RateRejection where
  | requests
  | writes
  | volunteerWrites
  deriving DecidableEq, Repr

structure RateWindows where
  secondStarted : ℕ
  requestsThisSecond : UInt32
  minuteStarted : ℕ
  writesThisMinute : UInt32
  hourStarted : ℕ
  volunteerWritesThisHour : UInt32
  deriving DecidableEq, Repr

/-- The limits of a policy. -/
structure RateLimits where
  requestsPerSecond : UInt32
  writesPerMinute : UInt32
  volunteerWritesPerHour : UInt32

/-- The arguments of a call besides the limits. -/
structure RateCall where
  now : ℕ
  write : Bool
  volunteerWrite : Bool

/-- `Duration::from_secs`. -/
def fromSecs (n : ℕ) : ℕ := n * 1000000000

namespace RateWindows

def new (now : ℕ) : RateWindows where
  secondStarted := now
  requestsThisSecond := 0
  minuteStarted := now
  writesThisMinute := 0
  hourStarted := now
  volunteerWritesThisHour := 0

/-! The windows which are over begin anew.  Like `duration_since`, the subtractions stop
at zero. -/

def refreshSecond (now : ℕ) (windows : RateWindows) : RateWindows :=
  if now - windows.secondStarted ≥ fromSecs 1 then
    { windows with secondStarted := now, requestsThisSecond := 0 }
  else windows

def refreshMinute (now : ℕ) (windows : RateWindows) : RateWindows :=
  if now - windows.minuteStarted ≥ fromSecs 60 then
    { windows with minuteStarted := now, writesThisMinute := 0 }
  else windows

def refreshHour (now : ℕ) (windows : RateWindows) : RateWindows :=
  if now - windows.hourStarted ≥ fromSecs (60 * 60) then
    { windows with hourStarted := now, volunteerWritesThisHour := 0 }
  else windows

def refresh (now : ℕ) (windows : RateWindows) : RateWindows :=
  ((windows.refreshSecond now).refreshMinute now).refreshHour now

/-! A call which has passed is counted. -/

def countRequest (windows : RateWindows) : RateWindows :=
  { windows with requestsThisSecond := windows.requestsThisSecond + 1 }

def countWrite (write : Bool) (windows : RateWindows) : RateWindows :=
  if write then { windows with writesThisMinute := windows.writesThisMinute + 1 }
  else windows

def countVolunteerWrite (volunteerWrite : Bool) (windows : RateWindows) : RateWindows :=
  if volunteerWrite then
    { windows with volunteerWritesThisHour := windows.volunteerWritesThisHour + 1 }
  else windows

def count (call : RateCall) (windows : RateWindows) : RateWindows :=
  (windows.countRequest.countWrite call.write).countVolunteerWrite call.volunteerWrite

def check (limits : RateLimits) (call : RateCall) (windows : RateWindows) :
    Except RateRejection Unit × RateWindows :=
  let windows := windows.refresh call.now
  if windows.requestsThisSecond ≥ limits.requestsPerSecond then
    (.error .requests, windows)
  else if call.write ∧ windows.writesThisMinute ≥ limits.writesPerMinute then
    (.error .writes, windows)
  else if call.volunteerWrite ∧
      windows.volunteerWritesThisHour ≥ limits.volunteerWritesPerHour then
    (.error .volunteerWrites, windows)
  else (.ok (), windows.count call)

end RateWindows

/-! ## A sequence of calls -/

/-- A call, the windows before it and after it, and its result. -/
structure RateAnswer where
  call : RateCall
  before : RateWindows
  result : Except RateRejection Unit
  after : RateWindows

def RateWindows.answers (limits : RateLimits) :
    RateWindows → List RateCall → List RateAnswer
  | _, [] => []
  | windows, call :: rest =>
      let (result, after) := windows.check limits call
      ⟨call, windows, result, after⟩ :: after.answers limits rest

/-! ## The three windows -/

inductive RateWindow where
  | second
  | minute
  | hour
  deriving DecidableEq, Repr

namespace RateWindow

def length : RateWindow → ℕ
  | .second => fromSecs 1
  | .minute => fromSecs 60
  | .hour => fromSecs (60 * 60)

def limit (limits : RateLimits) : RateWindow → UInt32
  | .second => limits.requestsPerSecond
  | .minute => limits.writesPerMinute
  | .hour => limits.volunteerWritesPerHour

/-- The calls which the window counts. -/
def concerns (call : RateCall) : RateWindow → Bool
  | .second => true
  | .minute => call.write
  | .hour => call.volunteerWrite

def started (windows : RateWindows) : RateWindow → ℕ
  | .second => windows.secondStarted
  | .minute => windows.minuteStarted
  | .hour => windows.hourStarted

def counter (windows : RateWindows) : RateWindow → UInt32
  | .second => windows.requestsThisSecond
  | .minute => windows.writesThisMinute
  | .hour => windows.volunteerWritesThisHour

end RateWindow

namespace RateAnswer

/-- The call began the window anew. -/
def Resets (window : RateWindow) (answer : RateAnswer) : Prop :=
  answer.call.now - window.started answer.before ≥ window.length

instance (window : RateWindow) (answer : RateAnswer) : Decidable (answer.Resets window) :=
  inferInstanceAs (Decidable (_ ≥ _))

def accepted (answer : RateAnswer) : Bool := answer.result.isOk

/-- The call was accepted, and the window counts such calls. -/
def takes (window : RateWindow) (answer : RateAnswer) : Bool :=
  answer.accepted && window.concerns answer.call

/-- What the window has counted when the call is judged. -/
def standing (window : RateWindow) (answer : RateAnswer) : UInt32 :=
  if answer.Resets window then 0 else window.counter answer.before

/-- The call was made in the time which begins at the instant and is as long as the window. -/
def isWithin (window : RateWindow) (start : ℕ) (answer : RateAnswer) : Bool :=
  decide (start ≤ answer.call.now) && decide (answer.call.now < start + window.length)

end RateAnswer

/-- What is proved of every sequence of calls, about one of the windows. -/
structure RateWindow.Sound (limits : RateLimits) (answers : List RateAnswer)
    (window : RateWindow) : Prop where
  /-- Between two resets: only the first call of the segment may begin the window anew. -/
  betweenResets : ∀ before segment after, answers = before ++ segment ++ after →
    (∀ answer ∈ segment.tail, ¬ answer.Resets window) →
    segment.countP (RateAnswer.takes window) ≤ (window.limit limits).toNat
  interval : ∀ start, answers.countP (fun answer => answer.takes window &&
    answer.isWithin window start) ≤ 2 * (window.limit limits).toNat
  rejected : ∀ answer ∈ answers, answer.accepted = false →
    window.counter answer.after = answer.standing window
  counted : ∀ answer ∈ answers, (window.counter answer.after).toNat =
    (answer.standing window).toNat + (answer.takes window).toNat
  bounded : ∀ answer ∈ answers, window.counter answer.after ≤ window.limit limits

/-! ## One call -/

section

variable {limits : RateLimits} {call : RateCall} {windows : RateWindows}

theorem RateWindow.length_pos (window : RateWindow) : 0 < window.length := by
  cases window <;> decide

namespace RateWindows

theorem started_refresh (now : ℕ) (windows : RateWindows) (window : RateWindow) :
    window.started (windows.refresh now) =
      if now - window.started windows ≥ window.length then now
      else window.started windows := by
  cases window with
  | second | minute | hour =>
      simp only [RateWindow.started, RateWindow.length, refresh, refreshSecond, refreshMinute,
        refreshHour, apply_ite secondStarted, apply_ite minuteStarted, apply_ite hourStarted,
        ite_self]
      rfl

theorem counter_refresh (now : ℕ) (windows : RateWindows) (window : RateWindow) :
    window.counter (windows.refresh now) =
      if now - window.started windows ≥ window.length then 0
      else window.counter windows := by
  cases window with
  | second | minute | hour =>
      simp only [RateWindow.counter, RateWindow.started, RateWindow.length, refresh,
        refreshSecond, refreshMinute, refreshHour, apply_ite minuteStarted,
        apply_ite hourStarted, apply_ite requestsThisSecond, apply_ite writesThisMinute,
        apply_ite volunteerWritesThisHour, ite_self]
      rfl

theorem started_count (call : RateCall) (windows : RateWindows) (window : RateWindow) :
    window.started (windows.count call) = window.started windows := by
  cases window with
  | second | minute | hour =>
      simp only [RateWindow.started, count, countRequest, countWrite, countVolunteerWrite,
        apply_ite secondStarted, apply_ite minuteStarted, apply_ite hourStarted, ite_self]

theorem counter_count (call : RateCall) (windows : RateWindows) (window : RateWindow) :
    window.counter (windows.count call) =
      if window.concerns call then window.counter windows + 1
      else window.counter windows := by
  cases window with
  | second =>
      simp only [RateWindow.counter, RateWindow.concerns, count, countRequest, countWrite,
        countVolunteerWrite, apply_ite requestsThisSecond, ite_self, if_true]
  | minute | hour =>
      simp only [RateWindow.counter, RateWindow.concerns, count, countRequest, countWrite,
        countVolunteerWrite, apply_ite writesThisMinute, apply_ite volunteerWritesThisHour,
        ite_self]
      rfl

/-- A call is rejected after the windows which are over have begun anew, or it finds
room in every window which counts it. -/
theorem check_cases (limits : RateLimits) (call : RateCall) (windows : RateWindows) :
    (∃ rejection, windows.check limits call =
      (.error rejection, windows.refresh call.now)) ∨
    (windows.check limits call = (.ok (), (windows.refresh call.now).count call) ∧
      ∀ window : RateWindow, window.concerns call = true →
        window.counter (windows.refresh call.now) < window.limit limits) := by
  unfold check
  generalize windows.refresh call.now = current
  simp only
  by_cases hrequests : current.requestsThisSecond ≥ limits.requestsPerSecond
  · rw [if_pos hrequests]
    exact .inl ⟨_, rfl⟩
  rw [if_neg hrequests]
  by_cases hwrites : call.write ∧ current.writesThisMinute ≥ limits.writesPerMinute
  · rw [if_pos hwrites]
    exact .inl ⟨_, rfl⟩
  rw [if_neg hwrites]
  by_cases hvolunteer : call.volunteerWrite ∧
      current.volunteerWritesThisHour ≥ limits.volunteerWritesPerHour
  · rw [if_pos hvolunteer]
    exact .inl ⟨_, rfl⟩
  rw [if_neg hvolunteer]
  refine .inr ⟨rfl, ?_⟩
  intro window hconcerns
  cases window with
  | second => exact UInt32.not_le.mp hrequests
  | minute => exact UInt32.not_le.mp fun hfull => hwrites ⟨hconcerns, hfull⟩
  | hour => exact UInt32.not_le.mp fun hfull => hvolunteer ⟨hconcerns, hfull⟩

end RateWindows

/-! ## Each window is a window of fixed length -/

def RateWindow.project (windows : RateWindows) (window : RateWindow) :
    FixedWindow.Window ℕ :=
  ⟨window.started windows, (window.counter windows).toNat⟩

def RateAnswer.turn (window : RateWindow) (answer : RateAnswer) : FixedWindow.Turn ℕ :=
  ⟨window.project answer.before, ⟨answer.call.now, answer.takes window⟩⟩

theorem RateWindow.elapsed_iff (windows : RateWindows) (window : RateWindow) (now : ℕ) :
    (window.project windows).Elapsed window.length now ↔
      now - window.started windows ≥ window.length := by
  have hpos := window.length_pos
  unfold FixedWindow.Window.Elapsed RateWindow.project
  simp only
  omega

theorem RateWindow.project_refresh (windows : RateWindows) (window : RateWindow) (now : ℕ) :
    window.project (windows.refresh now) =
      (window.project windows).refresh window.length now := by
  unfold FixedWindow.Window.refresh
  rw [if_congr (window.elapsed_iff windows now) rfl rfl]
  unfold RateWindow.project
  rw [RateWindows.started_refresh, RateWindows.counter_refresh]
  split
  · rfl
  · rfl

/-- The answer is the one of the function. -/
def RateAnswer.Follows (limits : RateLimits) (answer : RateAnswer) : Prop :=
  answer.before.check limits answer.call = (answer.result, answer.after)

namespace RateAnswer.Follows

variable {answer : RateAnswer}

/-- A call which takes from a window finds room in it. -/
theorem lt_limit (h : answer.Follows limits) {window : RateWindow}
    (htakes : answer.takes window = true) :
    window.counter (answer.before.refresh answer.call.now) < window.limit limits := by
  unfold RateAnswer.takes RateAnswer.accepted at htakes
  rw [Bool.and_eq_true] at htakes
  unfold RateAnswer.Follows at h
  rcases RateWindows.check_cases limits answer.call answer.before with
    ⟨rejection, hrejected⟩ | ⟨-, hroom⟩
  · rw [hrejected, Prod.mk.injEq] at h
    rw [← h.1] at htakes
    cases htakes.1
  · exact hroom window htakes.2

/-- The windows afterwards: a rejected call is not counted in any. -/
theorem counter_after (h : answer.Follows limits) (window : RateWindow) :
    window.counter answer.after =
      window.counter (answer.before.refresh answer.call.now) +
        if answer.takes window then 1 else 0 := by
  unfold RateAnswer.Follows at h
  unfold RateAnswer.takes RateAnswer.accepted
  rcases RateWindows.check_cases limits answer.call answer.before with
    ⟨rejection, hrejected⟩ | ⟨haccepted, -⟩
  · rw [hrejected, Prod.mk.injEq] at h
    rw [← h.1, ← h.2]
    simp [Except.isOk, Except.toBool]
  · rw [haccepted, Prod.mk.injEq] at h
    rw [← h.1, ← h.2, RateWindows.counter_count]
    cases window.concerns answer.call with
    | false => simp
    | true => simp [Except.isOk, Except.toBool]

theorem started_after (h : answer.Follows limits) (window : RateWindow) :
    window.started answer.after =
      window.started (answer.before.refresh answer.call.now) := by
  unfold RateAnswer.Follows at h
  rcases RateWindows.check_cases limits answer.call answer.before with
    ⟨rejection, hrejected⟩ | ⟨haccepted, -⟩
  · rw [hrejected, Prod.mk.injEq] at h
    rw [← h.2]
  · rw [haccepted, Prod.mk.injEq] at h
    rw [← h.2, RateWindows.started_count]

/-- The increment does not overflow. -/
theorem toNat_counter_after (h : answer.Follows limits) (window : RateWindow) :
    (window.counter answer.after).toNat =
      (window.counter (answer.before.refresh answer.call.now)).toNat +
        (answer.takes window).toNat := by
  rw [h.counter_after]
  cases htakes : answer.takes window with
  | false => simp
  | true =>
      have hlt := UInt32.lt_iff_toNat_lt.mp (h.lt_limit htakes)
      have hsize := (window.limit limits).toNat_lt
      rw [if_pos rfl, UInt32.toNat_add, UInt32.toNat_one, Bool.toNat_true]
      exact Nat.mod_eq_of_lt (by omega)

theorem hasRoom (h : answer.Follows limits) (window : RateWindow) :
    (answer.turn window).HasRoom window.length (window.limit limits).toNat := by
  intro htakes
  have hlt := h.lt_limit htakes
  have hproject := window.project_refresh answer.before answer.call.now
  change ((window.project answer.before).refresh window.length answer.call.now).taken < _
  rw [← hproject]
  exact UInt32.lt_iff_toNat_lt.mp hlt

theorem project_after (h : answer.Follows limits) (window : RateWindow) :
    window.project answer.after =
      (window.project answer.before).step window.length (answer.turn window).attempt := by
  unfold FixedWindow.Window.step RateAnswer.turn
  simp only
  rw [← window.project_refresh]
  unfold RateWindow.project
  rw [h.started_after, h.toNat_counter_after]

end RateAnswer.Follows

/-! ## Every sequence of calls -/

theorem RateWindows.follows_of_mem_answers {calls : List RateCall} {answer : RateAnswer}
    (h : answer ∈ windows.answers limits calls) : answer.Follows limits := by
  induction calls generalizing windows with
  | nil => cases h
  | cons call rest ih =>
      rcases List.mem_cons.mp h with rfl | hrest
      · rfl
      · exact ih hrest

theorem RateWindows.runsFrom_answers (limits : RateLimits) (window : RateWindow) (calls : List RateCall)
    (windows : RateWindows) :
    FixedWindow.RunsFrom window.length (window.project windows)
      ((windows.answers limits calls).map (RateAnswer.turn window)) := by
  induction calls generalizing windows with
  | nil => trivial
  | cons call rest ih =>
      have hfollows : RateAnswer.Follows limits
          ⟨call, windows, (windows.check limits call).1, (windows.check limits call).2⟩ := rfl
      have hafter := hfollows.project_after window
      refine ⟨rfl, ?_⟩
      have hrest := ih (windows.check limits call).2
      rw [hafter] at hrest
      exact hrest

theorem RateWindows.map_now_answers (limits : RateLimits) (calls : List RateCall) (windows : RateWindows) :
    (windows.answers limits calls).map (fun answer => answer.call.now) =
      calls.map RateCall.now := by
  induction calls generalizing windows with
  | nil => rfl
  | cons call rest ih => exact congrArg (call.now :: ·) (ih _)

theorem RateAnswer.standing_eq (answer : RateAnswer) (window : RateWindow) :
    answer.standing window = window.counter (answer.before.refresh answer.call.now) := by
  rw [RateWindows.counter_refresh]
  rfl

theorem countP_takes (answers : List RateAnswer) (window : RateWindow) :
    answers.countP (RateAnswer.takes window) =
      FixedWindow.taken (answers.map (RateAnswer.turn window)) := by
  unfold FixedWindow.taken
  rw [List.countP_map]
  rfl

theorem countP_isWithin (answers : List RateAnswer) (window : RateWindow) (start : ℕ) :
    answers.countP (fun answer => answer.takes window && answer.isWithin window start) =
      FixedWindow.takenWithin window.length start
        (answers.map (RateAnswer.turn window)) := by
  unfold FixedWindow.takenWithin
  rw [List.countP_map]
  congr 1
  funext answer
  simp only [Function.comp_apply, RateAnswer.turn, RateAnswer.isWithin, Bool.and_assoc]
  rfl

/-- No window counts more than its limit between two resets, nor more than twice its limit in
a time of its own length; a rejected call is counted in no window; and no counter exceeds
its limit, so that none overflows. -/
theorem rateWindows_sound (limits : RateLimits) (createdAt : ℕ) (calls : List RateCall)
    (hsorted : (calls.map RateCall.now).Pairwise (· ≤ ·)) (window : RateWindow) :
    window.Sound limits ((RateWindows.new createdAt).answers limits calls) := by
  have hfollows : ∀ answer ∈ (RateWindows.new createdAt).answers limits calls,
      answer.Follows limits := fun answer h => RateWindows.follows_of_mem_answers h
  have hruns := RateWindows.runsFrom_answers limits window calls (.new createdAt)
  have hnow := RateWindows.map_now_answers limits calls (.new createdAt)
  have hstart : (window.project (RateWindows.new createdAt)).taken ≤
      (window.limit limits).toNat := by
    cases window with
    | second | minute | hour => exact Nat.zero_le _
  generalize (RateWindows.new createdAt).answers limits calls = answers at *
  have hroom : ∀ turn ∈ answers.map (RateAnswer.turn window),
      turn.HasRoom window.length (window.limit limits).toNat := by
    intro turn hturn
    obtain ⟨answer, hanswer, rfl⟩ := List.mem_map.mp hturn
    exact (hfollows answer hanswer).hasRoom window
  have hcounted : ∀ answer ∈ answers, (window.counter answer.after).toNat =
      (answer.standing window).toNat + (answer.takes window).toNat := by
    intro answer hanswer
    rw [answer.standing_eq]
    exact (hfollows answer hanswer).toNat_counter_after window
  constructor
  · rintro before segment after rfl hquiet
    rw [List.map_append, List.map_append] at hruns hroom
    rw [countP_takes]
    refine hruns.taken_between_le
      (fun turn hturn => hroom turn (List.mem_append_left _ hturn)) hstart ?_
    intro turn hturn
    rw [← List.map_tail] at hturn
    obtain ⟨answer, hanswer, rfl⟩ := List.mem_map.mp hturn
    have helapsed := window.elapsed_iff answer.before answer.call.now
    exact fun hresets => hquiet answer hanswer (helapsed.mp hresets)
  · intro start
    rw [countP_isWithin]
    refine hruns.takenWithin_le hroom hstart ?_ start
    rw [← hnow, List.pairwise_map] at hsorted
    rwa [List.pairwise_map]
  · intro answer hanswer hrejected
    rw [(hfollows answer hanswer).counter_after, ← answer.standing_eq, RateAnswer.takes,
      hrejected]
    simp
  · exact hcounted
  · intro answer hanswer
    have hafter := hruns.step_taken_le hroom hstart (List.mem_map_of_mem hanswer)
    have hproject := (hfollows answer hanswer).project_after window
    change ((window.project answer.before).step window.length _).taken ≤ _ at hafter
    rw [← hproject] at hafter
    exact UInt32.le_iff_toNat_le.mpr hafter

end

namespace Sample

/-- Two requests in a second, one write in a minute, one result of a volunteer in an hour. -/
def tightLimits : RateLimits := ⟨2, 1, 1⟩

/-- Requests at the end of a second and at the beginning of the next one. -/
def burst : List RateCall :=
  [⟨900000000, true, true⟩, ⟨950000000, true, false⟩, ⟨990000000, false, false⟩,
    ⟨995000000, false, false⟩, ⟨1000000000, false, false⟩, ⟨1100000000, false, false⟩,
    ⟨1200000000, false, false⟩]

def burstAnswers : List RateAnswer := (RateWindows.new 0).answers tightLimits burst

/-- A write which is over its limit leaves room for a request, and twice the limit is accepted
within one second. -/
theorem rateWindows_sound_burst :
    burstAnswers.map RateAnswer.accepted = [true, false, true, false, true, true, false] ∧
      burstAnswers.countP (fun answer => answer.takes .second &&
        answer.isWithin .second 900000000) = 2 * 2 ∧
      (∀ window : RateWindow, window.Sound tightLimits burstAnswers) := by
  refine ⟨by decide, by decide, ?_⟩
  exact rateWindows_sound tightLimits 0 burst (by decide)

end Sample

end Commonwake

import Mathlib.Tactic

/-!
# Tasks under a guard

The tasks of one lane share a guard, which one of them holds from its first
access of the shared state to its last.  What a task has seen stays true until
it writes, as long as only the tasks of its own lane can make it false.
-/

namespace Guarded

/-- A task awaits its guard, holds it with what it has seen, or is done. -/
inductive Stage (γ : Type)
  | waiting
  | holding (seen : γ)
  | done

structure Task (ρ γ : Type) where
  request : ρ
  stage : Stage γ

/-- The lane of a request, what a task has seen when it acquires the guard, one
access of the shared state, and what happens to this state besides. -/
structure System (σ ρ γ ε α κ : Type) where
  lane : ρ → κ
  first : γ
  access : ε → ρ → γ → σ → Option γ × σ
  other : α → σ → σ

inductive Event (ρ ε α : Type)
  | arrive (request : ρ)
  | acquire (index : ℕ)
  | access (index : ℕ) (input : ε)
  | cancel (index : ℕ)
  | other (act : α)

structure Config (σ ρ γ : Type) where
  shared : σ
  tasks : List (Task ρ γ)

section

variable {σ ρ γ ε α κ : Type} [DecidableEq κ] (system : System σ ρ γ ε α κ)

def Stage.after : Option γ → Stage γ
  | some seen => .holding seen
  | none => .done

def Task.holds (lane : κ) (task : Task ρ γ) : Bool :=
  match task.stage with
  | .holding _ => decide (system.lane task.request = lane)
  | _ => false

namespace Config

/-- A task which is not done after an access keeps the guard. -/
def step (config : Config σ ρ γ) : Event ρ ε α → Config σ ρ γ
  | .arrive request => { config with tasks := config.tasks ++ [⟨request, .waiting⟩] }
  | .acquire index =>
      match config.tasks[index]? with
      | some ⟨request, .waiting⟩ =>
          if config.tasks.any (Task.holds system (system.lane request)) then config
          else { config with
            tasks := config.tasks.set index ⟨request, .holding system.first⟩ }
      | _ => config
  | .access index input =>
      match config.tasks[index]? with
      | some ⟨request, .holding seen⟩ =>
          let (next, shared) := system.access input request seen config.shared
          ⟨shared, config.tasks.set index ⟨request, .after next⟩⟩
      | _ => config
  | .cancel index =>
      match config.tasks[index]? with
      | some ⟨request, .waiting⟩ =>
          { config with tasks := config.tasks.set index ⟨request, .done⟩ }
      | _ => config
  | .other act => { config with shared := system.other act config.shared }

def run (config : Config σ ρ γ) (events : List (Event ρ ε α)) : Config σ ρ γ :=
  events.foldl (step system) config

end Config

/-- What has to be shown of a system in which only some requests arrive: the state
stays good, and what a task has seen stays true. -/
structure Rely (serves : ρ → Prop) (good : σ → Prop) (knows : ρ → γ → σ → Prop) :
    Prop where
  first : ∀ request shared, serves request → good shared →
    knows request system.first shared
  own : ∀ input request seen shared, serves request → good shared →
    knows request seen shared →
    good (system.access input request seen shared).2 ∧
      ∀ next, (system.access input request seen shared).1 = some next →
        knows request next (system.access input request seen shared).2
  lanes : ∀ input request seen shared other otherSeen, serves request → serves other →
    system.lane request ≠ system.lane other → knows request seen shared →
    knows other otherSeen shared →
    knows other otherSeen (system.access input request seen shared).2
  other : ∀ act shared, good shared →
    good (system.other act shared) ∧
      ∀ request seen, serves request → knows request seen shared →
        knows request seen (system.other act shared)

/-- The invariant of a run. -/
structure Config.Sound (serves : ρ → Prop) (good : σ → Prop) (knows : ρ → γ → σ → Prop)
    (config : Config σ ρ γ) : Prop where
  good : good config.shared
  serves : ∀ task ∈ config.tasks, serves task.request
  knows : ∀ (index : ℕ) request seen, config.tasks[index]? = some ⟨request, .holding seen⟩ →
    knows request seen config.shared
  exclusive : ∀ (index other : ℕ) request otherRequest seen otherSeen,
    config.tasks[index]? = some ⟨request, .holding seen⟩ →
    config.tasks[other]? = some ⟨otherRequest, .holding otherSeen⟩ →
    system.lane request = system.lane otherRequest → index = other

end

section

variable {σ ρ γ ε α κ : Type} [DecidableEq κ] {system : System σ ρ γ ε α κ}
  {serves : ρ → Prop} {good : σ → Prop} {knows : ρ → γ → σ → Prop}
  {config : Config σ ρ γ}

theorem Stage.after_eq_holding {next : Option γ} {seen : γ}
    (h : Stage.after next = .holding seen) : next = some seen := by
  cases next with
  | none => cases h
  | some other =>
      cases h
      rfl

omit [DecidableEq κ] in
/-- A task whose stage is replaced, when it holds the guard afterwards only if it
held it before. -/
theorem Config.Sound.set (h : config.Sound system serves good knows) {index : ℕ}
    {request : ρ} {before after : Stage γ} {shared : σ}
    (htask : config.tasks[index]? = some ⟨request, before⟩) (hgood : good shared)
    (hothers : ∀ (other : ℕ) otherRequest otherSeen, other ≠ index →
      config.tasks[other]? = some ⟨otherRequest, .holding otherSeen⟩ →
      knows otherRequest otherSeen shared)
    (hknows : ∀ seen, after = .holding seen → knows request seen shared)
    (hfree : ∀ seen, after = .holding seen → ∀ (other : ℕ) otherRequest otherSeen,
      other ≠ index → config.tasks[other]? = some ⟨otherRequest, .holding otherSeen⟩ →
      system.lane request ≠ system.lane otherRequest) :
    Config.Sound system serves good knows
      ⟨shared, config.tasks.set index ⟨request, after⟩⟩ := by
  have hlength : index < config.tasks.length := by
    by_contra hout
    rw [List.getElem?_eq_none (not_lt.mp hout)] at htask
    cases htask
  -- The task at a place is the replaced one, or was there before.
  have hplace : ∀ (other : ℕ) otherRequest otherSeen,
      (config.tasks.set index ⟨request, after⟩)[other]? =
        some ⟨otherRequest, .holding otherSeen⟩ →
      (other = index ∧ otherRequest = request ∧ after = .holding otherSeen) ∨
        (other ≠ index ∧
          config.tasks[other]? = some ⟨otherRequest, .holding otherSeen⟩) := by
    intro other otherRequest otherSeen hother
    by_cases hsame : index = other
    · subst hsame
      rw [List.getElem?_set_self hlength] at hother
      cases hother
      exact .inl ⟨rfl, rfl, rfl⟩
    · rw [List.getElem?_set_ne hsame] at hother
      exact .inr ⟨fun heq => hsame heq.symm, hother⟩
  refine ⟨hgood, ?_, ?_, ?_⟩
  · intro task htaskMem
    cases List.mem_or_eq_of_mem_set htaskMem with
    | inl hold => exact h.serves task hold
    | inr hnew =>
        rw [hnew]
        exact h.serves ⟨request, before⟩ (List.mem_of_getElem? htask)
  · intro other otherRequest otherSeen hother
    cases hplace other otherRequest otherSeen hother with
    | inl hself =>
        rw [hself.2.1]
        exact hknows otherSeen hself.2.2
    | inr hkept => exact hothers other otherRequest otherSeen hkept.1 hkept.2
  · intro first second firstRequest secondRequest firstSeen secondSeen hfirst hsecond hlane
    cases hplace first firstRequest firstSeen hfirst with
    | inl hself =>
        cases hplace second secondRequest secondSeen hsecond with
        | inl hother => rw [hself.1, hother.1]
        | inr hkept =>
            rw [hself.2.1] at hlane
            exact absurd hlane (hfree firstSeen hself.2.2 second secondRequest secondSeen
              hkept.1 hkept.2)
    | inr hkept =>
        cases hplace second secondRequest secondSeen hsecond with
        | inl hself =>
            rw [hself.2.1] at hlane
            exact absurd hlane.symm (hfree secondSeen hself.2.2 first firstRequest firstSeen
              hkept.1 hkept.2)
        | inr hother =>
            exact h.exclusive first second firstRequest secondRequest firstSeen secondSeen
              hkept.2 hother.2 hlane

/-- One step. -/
theorem Config.Sound.step (hrely : Rely system serves good knows)
    (h : config.Sound system serves good knows) {event : Event ρ ε α}
    (harrive : ∀ request, event = .arrive request → serves request) :
    (config.step system event).Sound system serves good knows := by
  cases event with
  | arrive request =>
      have hplace : ∀ (index : ℕ) otherRequest seen,
          (config.tasks ++ [⟨request, .waiting⟩])[index]? =
            some ⟨otherRequest, .holding seen⟩ →
          config.tasks[index]? = some ⟨otherRequest, .holding seen⟩ := by
        intro index otherRequest seen hindex
        by_cases hlength : index < config.tasks.length
        · rwa [List.getElem?_append_left hlength] at hindex
        · rw [List.getElem?_append_right (not_lt.mp hlength)] at hindex
          have hmem := List.mem_of_getElem? hindex
          rw [List.mem_singleton] at hmem
          cases hmem
      refine ⟨h.good, ?_, ?_, ?_⟩
      · intro task htask
        cases List.mem_append.mp htask with
        | inl hold => exact h.serves task hold
        | inr hnew =>
            rw [List.mem_singleton.mp hnew]
            exact harrive request rfl
      · intro index otherRequest seen hindex
        exact h.knows index otherRequest seen (hplace index otherRequest seen hindex)
      · intro first second firstRequest secondRequest firstSeen secondSeen hfirst hsecond
        exact h.exclusive first second firstRequest secondRequest firstSeen secondSeen
          (hplace _ _ _ hfirst) (hplace _ _ _ hsecond)
  | acquire index =>
      simp only [Config.step]
      split
      next request htask =>
        split
        · exact h
        next hfree =>
          have hserves := h.serves ⟨request, .waiting⟩ (List.mem_of_getElem? htask)
          refine h.set htask h.good ?_ ?_ ?_
          · intro other otherRequest otherSeen _ hother
            exact h.knows other otherRequest otherSeen hother
          · rintro seen ⟨⟩
            exact hrely.first request config.shared hserves h.good
          · intro seen _ other otherRequest otherSeen _ hother hlane
            apply hfree
            rw [List.any_eq_true]
            refine ⟨_, List.mem_of_getElem? hother, ?_⟩
            simp [Task.holds, hlane]
      · exact h
  | access index input =>
      simp only [Config.step]
      split
      next request seen htask =>
        have hserves := h.serves ⟨request, .holding seen⟩ (List.mem_of_getElem? htask)
        have hseen := h.knows index request seen htask
        obtain ⟨hgood, hnext⟩ := hrely.own input request seen config.shared hserves h.good hseen
        have hother : ∀ (other : ℕ) otherRequest otherSeen, other ≠ index →
            config.tasks[other]? = some ⟨otherRequest, .holding otherSeen⟩ →
            system.lane request ≠ system.lane otherRequest := by
          intro other otherRequest otherSeen hne hplace hlane
          exact hne (h.exclusive index other request otherRequest seen otherSeen htask hplace
            hlane).symm
        refine h.set htask hgood ?_ ?_ ?_
        · intro other otherRequest otherSeen hne hplace
          exact hrely.lanes input request seen config.shared otherRequest otherSeen hserves
            (h.serves _ (List.mem_of_getElem? hplace))
            (hother other otherRequest otherSeen hne hplace) hseen
            (h.knows other otherRequest otherSeen hplace)
        · intro after hafter
          exact hnext after (Stage.after_eq_holding hafter)
        · intro after _ other otherRequest otherSeen hne hplace
          exact hother other otherRequest otherSeen hne hplace
      · exact h
  | cancel index =>
      simp only [Config.step]
      split
      next request htask =>
        refine h.set htask h.good ?_ ?_ ?_
        · intro other otherRequest otherSeen _ hother
          exact h.knows other otherRequest otherSeen hother
        · rintro seen ⟨⟩
        · rintro seen ⟨⟩
      · exact h
  | other act =>
      obtain ⟨hgood, hknows⟩ := hrely.other act config.shared h.good
      refine ⟨hgood, h.serves, ?_, h.exclusive⟩
      intro index request seen hindex
      exact hknows request seen (h.serves _ (List.mem_of_getElem? hindex))
        (h.knows index request seen hindex)

/-- A run from a good state without tasks. -/
theorem run_good (hrely : Rely system serves good knows) {shared : σ} (hgood : good shared)
    {events : List (Event ρ ε α)}
    (harrive : ∀ request, .arrive request ∈ events → serves request) :
    good ((Config.mk shared []).run system events).shared := by
  have hsound : ((Config.mk shared []).run system events).Sound system serves good knows := by
    induction events using List.reverseRecOn with
    | nil =>
        refine ⟨hgood, ?_, ?_, ?_⟩
        · intro task htask
          cases htask
        · intro index request seen hindex
          cases hindex
        · intro index other request otherRequest seen otherSeen hindex
          cases hindex
    | append_singleton events event ih =>
        have hbefore := ih fun request hrequest =>
          harrive request (List.mem_append_left _ hrequest)
        unfold Config.run at hbefore ⊢
        rw [List.foldl_append, List.foldl_cons, List.foldl_nil]
        apply hbefore.step hrely
        rintro request rfl
        exact harrive request (List.mem_append_right _ List.mem_cons_self)
  exact hsound.good

end

end Guarded

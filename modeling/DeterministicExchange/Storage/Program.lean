import Mathlib.Logic.Function.Basic
import Mathlib.Logic.Relation

/-!
# Programs side by side on one device

A program is a tree of calls: what it does next depends on what its last call
answered. The device performs one call in one step, with an outcome that the
environment chooses. Several programs share a device in any interleaving, and
each may stop anywhere.

An outline of a program says what each of its steps guarantees, and what its
result promises, as long as all other steps keep to what it relies on. Programs
whose guarantees are what the others rely on keep their outlines side by side.
-/

namespace DeterministicExchange.Storage

open Relation

/-- The calls of a device, with the type of the answer to each. -/
structure Interface where
  Request : Type
  Answer : Request → Type

inductive Program (I : Interface) (α : Type) : Type where
  | done (a : α)
  | call (request : I.Request) (next : I.Answer request → Program I α)

/-- What a device answers, and the state that it is left in. -/
abbrev Device (I : Interface) (Outcome S : Type) : Type :=
  (request : I.Request) → Outcome → S → I.Answer request × S

namespace Program

variable {I : Interface} {α β : Type} {Outcome S : Type}

def bind : Program I α → (α → Program I β) → Program I β
  | done a, f => f a
  | call request next, f => call request fun answer ↦ (next answer).bind f

instance : Monad (Program I) where
  pure := done
  bind := bind

/-- One call as a program. -/
def request (request : I.Request) : Program I (I.Answer request) := call request done

def result? : Program I α → Option α
  | done a => some a
  | call _ _ => none

/-- The next call of a program, if it is not done. -/
def step (device : Device I Outcome S) (outcome : Outcome) (state : S) : Program I α → Program I α × S
  | done a => (done a, state)
  | call request next => (next (device request outcome state).1, (device request outcome state).2)

/-- One call for each outcome. -/
def run (device : Device I Outcome S) (program : Program I α) (state : S) (outcomes : List Outcome) :
    Program I α × S :=
  outcomes.foldl (fun current outcome ↦ current.1.step device outcome current.2) (program, state)

/-- A device that also keeps a record of what has happened answers like the device without it. -/
theorem step_erase {T : Type} (device : Device I Outcome S) (device' : Device I Outcome T) (erase : S → T)
    (hdevice : ∀ request outcome state, device' request outcome (erase state) =
      ((device request outcome state).1, erase (device request outcome state).2))
    (program : Program I α) (outcome : Outcome) (state : S) :
    program.step device' outcome (erase state) =
      ((program.step device outcome state).1, erase (program.step device outcome state).2) := by
  cases program with
  | done a => rfl
  | call request next =>
    unfold step
    dsimp only
    rw [hdevice]

theorem run_erase {T : Type} (device : Device I Outcome S) (device' : Device I Outcome T) (erase : S → T)
    (hdevice : ∀ request outcome state, device' request outcome (erase state) =
      ((device request outcome state).1, erase (device request outcome state).2))
    (program : Program I α) (state : S) (outcomes : List Outcome) :
    program.run device' (erase state) outcomes =
      ((program.run device state outcomes).1, erase (program.run device state outcomes).2) := by
  induction outcomes generalizing program state with
  | nil => rfl
  | cons outcome outcomes ih =>
    calc
      _ = (program.step device' outcome (erase state)).1.run device'
            (program.step device' outcome (erase state)).2 outcomes := rfl
      _ = (program.step device outcome state).1.run device'
            (erase (program.step device outcome state).2) outcomes :=
              by rw [step_erase device device' erase hdevice]
      _ = _ := ih _ _

theorem bind_eq (program : Program I α) (f : α → Program I β) : program >>= f = program.bind f := rfl

theorem result?_eq_some {program : Program I α} {a : α} : program.result? = some a ↔ program = done a := by
  cases program with
  | done b => simp [result?]
  | call request next => simp [result?]

end Program

/-! ## Outlines -/

section Outlines

variable {I : Interface} {α β ε : Type} {Outcome S : Type} {device : Device I Outcome S}
  {rely guarantee : S → S → Prop} {promise : α → S → Prop}

/-- What is kept by every step of the others. -/
def Stable (rely : S → S → Prop) (assertion : S → Prop) : Prop :=
  ∀ ⦃state state'⦄, assertion state → rely state state' → assertion state'

/-- Without others everything stays. -/
theorem stable_alone (assertion : S → Prop) : Stable (fun _ _ ↦ False) assertion := fun _ _ _ h ↦ h.elim

theorem Stable.star {assertion : S → Prop} (h : Stable rely assertion) {state state' : S}
    (hstate : assertion state) (hothers : ReflTransGen rely state state') : assertion state' := by
  induction hothers with
  | refl => exact hstate
  | tail _ hlast ih => exact h ih hlast

/-- However the others step in between, each call of the program is a step that it guarantees, and its
result comes with what is promised. -/
def Outline (device : Device I Outcome S) (rely guarantee : S → S → Prop) (promise : α → S → Prop) :
    Program I α → S → Prop
  | .done a, state => ∀ state', ReflTransGen rely state state' → promise a state'
  | .call request next, state => ∀ state', ReflTransGen rely state state' → ∀ outcome,
      guarantee state' (device request outcome state').2 ∧
        Outline device rely guarantee promise (next (device request outcome state').1)
          (device request outcome state').2

namespace Outline

/-- The others never break an outline. -/
theorem stable (program : Program I α) :
    Stable rely (Outline device rely guarantee promise program) := by
  intro state state' h hother
  cases program with
  | done a => exact fun later hlater ↦ h later (.head hother hlater)
  | call request next => exact fun later hlater ↦ h later (.head hother hlater)

theorem promised {a : α} {state : S} (h : Outline device rely guarantee promise (.done a) state) :
    promise a state := h state .refl

/-- A result needs an assertion that the others keep. -/
theorem done {assertion : S → Prop} {a : α} (hstable : Stable rely assertion)
    (h : ∀ state, assertion state → promise a state) {state : S} (hstate : assertion state) :
    Outline device rely guarantee promise (.done a) state :=
  fun _ hothers ↦ h _ (hstable.star hstate hothers)

/-- A call is made where an assertion holds that the others keep. -/
theorem call {assertion : S → Prop} {request : I.Request} {next : I.Answer request → Program I α}
    (hstable : Stable rely assertion)
    (h : ∀ state outcome, assertion state → guarantee state (device request outcome state).2 ∧
      Outline device rely guarantee promise (next (device request outcome state).1)
        (device request outcome state).2)
    {state : S} (hstate : assertion state) :
    Outline device rely guarantee promise (.call request next) state :=
  fun _ hothers outcome ↦ h _ outcome (hstable.star hstate hothers)

/-- One call, with what it leaves behind for each answer. -/
theorem request {assertion : S → Prop} (request : I.Request) {promise : I.Answer request → S → Prop}
    (hstable : Stable rely assertion) (hpromise : ∀ answer, Stable rely (promise answer))
    (h : ∀ state outcome, assertion state → guarantee state (device request outcome state).2 ∧
      promise (device request outcome state).1 (device request outcome state).2)
    {state : S} (hstate : assertion state) :
    Outline device rely guarantee promise (Program.request request) state := by
  apply call hstable _ hstate
  intro state outcome hstate
  obtain ⟨hstep, hpromised⟩ := h state outcome hstate
  exact ⟨hstep, done (hpromise _) (fun _ ↦ id) hpromised⟩

/-- An outline may promise less. -/
theorem mono {promise' : α → S → Prop} (h : ∀ a state, promise a state → promise' a state)
    {program : Program I α} {state : S} (houtline : Outline device rely guarantee promise program state) :
    Outline device rely guarantee promise' program state := by
  induction program generalizing state with
  | done a => exact fun state' hothers ↦ h a state' (houtline state' hothers)
  | call request next ih =>
    intro state' hothers outcome
    obtain ⟨hstep, hnext⟩ := houtline state' hothers outcome
    exact ⟨hstep, ih _ hnext⟩

/-- One program after another: the first promises where the second can go on. -/
theorem bind {promise' : β → S → Prop} {f : α → Program I β} {program : Program I α} {state : S}
    (h : Outline device rely guarantee promise program state)
    (hafter : ∀ a state, promise a state → Outline device rely guarantee promise' (f a) state) :
    Outline device rely guarantee promise' (program >>= f) state := by
  rw [Program.bind_eq]
  induction program generalizing state with
  | done a => exact hafter a state h.promised
  | call request next ih =>
    intro state' hothers outcome
    obtain ⟨hstep, hnext⟩ := h state' hothers outcome
    exact ⟨hstep, ih _ hnext⟩

/-- Where the first of two programs fails, so do both. -/
theorem bindExcept (promise : Except ε α → S → Prop) {promise' : Except ε β → S → Prop}
    {program : ExceptT ε (Program I) α} {f : α → ExceptT ε (Program I) β} {state : S}
    (h : Outline device rely guarantee promise (program : Program I (Except ε α)) state)
    (herror : ∀ error, Stable rely (promise (.error error)))
    (hfailed : ∀ error state, promise (.error error) state → promise' (.error error) state)
    (hafter : ∀ a state, promise (.ok a) state → Outline device rely guarantee promise' (f a) state) :
    Outline device rely guarantee promise' (program >>= f : ExceptT ε (Program I) β) state := by
  apply bind h
  intro outcome state houtcome
  cases outcome with
  | error error => exact done (herror error) (hfailed error) houtcome
  | ok a => exact hafter a state houtcome

/-- The step of an outlined program is guaranteed, and leaves an outlined program. -/
theorem step {program : Program I α} {state : S}
    (h : Outline device rely guarantee promise program state) (outcome : Outcome) :
    ((program.step device outcome state).2 = state ∨ guarantee state (program.step device outcome state).2) ∧
      Outline device rely guarantee promise (program.step device outcome state).1
        (program.step device outcome state).2 := by
  cases program with
  | done a => exact ⟨.inl rfl, h⟩
  | call request next =>
    obtain ⟨hstep, hnext⟩ := h state .refl outcome
    exact ⟨.inr hstep, hnext⟩

/-- However far the program runs alone, it keeps its outline, and what its steps guarantee to keep. -/
theorem run (invariant : S → Prop) (hkeeps : ∀ state state', guarantee state state' → invariant state →
    invariant state') {program : Program I α} {state : S}
    (h : Outline device rely guarantee promise program state) (hstart : invariant state)
    (outcomes : List Outcome) :
    Outline device rely guarantee promise (program.run device state outcomes).1
      (program.run device state outcomes).2 ∧ invariant (program.run device state outcomes).2 := by
  induction outcomes generalizing program state with
  | nil => exact ⟨h, hstart⟩
  | cons outcome outcomes ih =>
    obtain ⟨hstep, hnext⟩ := h.step outcome
    apply ih hnext
    rcases hstep with hsame | hguaranteed
    · rwa [hsame]
    · exact hkeeps _ _ hguaranteed hstart

end Outline

end Outlines

/-! ## Races -/

/-- Those who write to one place, and those who read it. -/
inductive Party (ι κ : Type) where
  | publisher (i : ι)
  | reader (k : κ)
  deriving DecidableEq

def Party.publisher? {ι κ : Type} : Party ι κ → Option ι
  | publisher i => some i
  | reader _ => none

theorem Party.bind_publisher?_eq_some {ι κ : Type} {winner : Option (Party ι κ)} {i : ι} :
    winner.bind Party.publisher? = some i ↔ winner = some (.publisher i) := by
  cases winner with
  | none => simp
  | some party => cases party <;> simp [Party.publisher?]

/-- Programs side by side, and the state of the device that they share. -/
structure Race (ι : Type) (I : Interface) (α : ι → Type) (S : Type) where
  programs : (i : ι) → Program I (α i)
  state : S

namespace Race

variable {ι : Type} [DecidableEq ι] {I : Interface} {α : ι → Type} {Outcome S T : Type}

/-- One party makes its next call. The device may tell the parties apart. -/
def step (device : ι → Device I Outcome S) (race : Race ι I α S) (action : ι × Outcome) : Race ι I α S :=
  let after := (race.programs action.1).step (device action.1) action.2 race.state
  ⟨Function.update race.programs action.1 after.1, after.2⟩

def run (device : ι → Device I Outcome S) (race : Race ι I α S) (actions : List (ι × Outcome)) :
    Race ι I α S :=
  actions.foldl (step device) race

variable {device : ι → Device I Outcome S} {rely guarantee : ι → S → S → Prop}
  {promise : (i : ι) → α i → S → Prop}

/-- Every party has its outline. -/
def Outlined (device : ι → Device I Outcome S) (rely guarantee : ι → S → S → Prop)
    (promise : (i : ι) → α i → S → Prop) (race : Race ι I α S) : Prop :=
  ∀ i, Outline (device i) (rely i) (guarantee i) (promise i) (race.programs i) race.state

theorem Outlined.step (hothers : ∀ i j, i ≠ j → ∀ state state',
  guarantee i state state' → rely j state state')
    {race : Race ι I α S} (h : race.Outlined device rely guarantee promise) (action : ι × Outcome) :
    ((race.step device action).state = race.state ∨
      guarantee action.1 race.state (race.step device action).state) ∧
      (race.step device action).Outlined device rely guarantee promise := by
  obtain ⟨i, outcome⟩ := action
  obtain ⟨hstep, hnext⟩ := (h i).step outcome
  refine ⟨hstep, fun j ↦ ?_⟩
  by_cases hj : j = i
  · subst hj
    unfold Race.step
    dsimp only
    rw [Function.update_self]
    exact hnext
  · have hprogram : (race.step device (i, outcome)).programs j = race.programs j :=
      Function.update_of_ne hj _ _
    rw [hprogram]
    rcases hstep with hsame | hguaranteed
    · have hstate : (race.step device (i, outcome)).state = race.state := hsame
      rw [hstate]
      exact h j
    · exact Outline.stable _ (h j) (hothers i j (Ne.symm hj) _ _ hguaranteed)

/-- In any interleaving the parties keep their outlines, and the state what each step guarantees to keep. -/
theorem Outlined.run {invariant : S → Prop}
    (hothers : ∀ i j, i ≠ j → ∀ state state', guarantee i state state' → rely j state state')
    (hkeeps : ∀ i state state', guarantee i state state' → invariant state → invariant state')
    {race : Race ι I α S} (h : race.Outlined device rely guarantee promise) (hstart : invariant race.state)
    (actions : List (ι × Outcome)) :
    (race.run device actions).Outlined device rely guarantee promise ∧
      invariant (race.run device actions).state := by
  induction actions generalizing race with
  | nil => exact ⟨h, hstart⟩
  | cons action actions ih =>
    obtain ⟨hstep, hnext⟩ := h.step hothers action
    apply ih hnext
    rcases hstep with hsame | hguaranteed
    · rwa [hsame]
    · exact hkeeps _ _ _ hguaranteed hstart

omit [DecidableEq ι] in
/-- A party that is done has what its outline promises. -/
theorem Outlined.promised {race : Race ι I α S} (h : race.Outlined device rely guarantee promise) (i : ι)
    {a : α i} (hdone : (race.programs i).result? = some a) : promise i a race.state := by
  have houtline := h i
  rw [Program.result?_eq_some.mp hdone] at houtline
  exact houtline.promised

/-! ## Auxiliary state -/

theorem run_erase (device : ι → Device I Outcome S) (device' : ι → Device I Outcome T) (erase : S → T)
    (hdevice : ∀ i request outcome state, device' i request outcome (erase state) =
      ((device i request outcome state).1, erase (device i request outcome state).2))
    (race : Race ι I α S) (actions : List (ι × Outcome)) :
    (⟨race.programs, erase race.state⟩ : Race ι I α T).run device' actions =
      ⟨(race.run device actions).programs, erase (race.run device actions).state⟩ := by
  induction actions generalizing race with
  | nil => rfl
  | cons action actions ih =>
    obtain ⟨i, outcome⟩ := action
    have hstep : (⟨race.programs, erase race.state⟩ : Race ι I α T).step device' (i, outcome) =
        ⟨(race.step device (i, outcome)).programs, erase (race.step device (i, outcome)).state⟩ := by
      unfold Race.step
      dsimp only
      rw [Program.step_erase (device i) (device' i) erase (hdevice i)]
    calc
      _ = (⟨(race.step device (i, outcome)).programs,
            erase (race.step device (i, outcome)).state⟩ : Race ι I α T).run device' actions := by
        rw [← hstep]
        rfl
      _ = _ := ih (race.step device (i, outcome))

/-- The device with a record of the last party that made something true. -/
def credited (test : S → Bool) (device : Device I Outcome S) (i : ι) : Device I Outcome (S × Option ι) :=
  fun request outcome state ↦
    let after := device request outcome state.1
    (after.1, after.2, if !test state.1 && test after.2 then some i else state.2)

omit [DecidableEq ι] in
theorem credited_of_eq {test : S → Bool} {device : Device I Outcome S} {request : I.Request}
    {outcome : Outcome}
    {state : S × Option ι} {answer : I.Answer request} {state' : S}
    (h : device request outcome state.1 = (answer, state')) (htest : test state' = test state.1) (i : ι) :
    credited test device i request outcome state = (answer, state', state.2) := by
  unfold credited
  simp [h, htest]

omit [DecidableEq ι] in
theorem credited_of_new {test : S → Bool} {device : Device I Outcome S} {request : I.Request}
    {outcome : Outcome}
    {state : S × Option ι} {answer : I.Answer request} {state' : S}
    (h : device request outcome state.1 = (answer, state')) (hbefore : test state.1 = false)
    (hafter : test state' = true) (i : ι) :
    credited test device i request outcome state = (answer, state', some i) := by
  unfold credited
  simp [h, hbefore, hafter]

theorem run_credited (test : S → Bool) (device : Device I Outcome S) (race : Race ι I α S)
    (winner : Option ι) (actions : List (ι × Outcome)) :
    ∃ winner' : Option ι, (⟨race.programs, race.state, winner⟩ : Race ι I α (S × Option ι)).run
        (credited test device) actions =
      ⟨(race.run (fun _ ↦ device) actions).programs, (race.run (fun _ ↦ device) actions).state, winner'⟩ := by
  have herase := run_erase (credited test device) (fun _ ↦ device) Prod.fst (fun _ _ _ _ ↦ rfl)
    (⟨race.programs, race.state, winner⟩ : Race ι I α (S × Option ι)) actions
  refine ⟨((⟨race.programs, race.state, winner⟩ : Race ι I α (S × Option ι)).run
    (credited test device) actions).state.2, ?_⟩
  rw [herase]

end Race

end DeterministicExchange.Storage

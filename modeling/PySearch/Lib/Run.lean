import Mathlib.Data.List.Basic

namespace Run

variable {σ ι : Type*} (step : σ → ι → Option σ)

-- Take the given actions one after another. An action that is not enabled ends the run.
def exec : σ → List ι → Option σ
  | state, [] => some state
  | state, action :: rest => (step state action).bind fun next => exec next rest

-- Every action of the run is taken in a state that meets the condition.
def Along (cond : σ → ι → Prop) : σ → List ι → Prop
  | _, [] => True
  | state, action :: rest =>
      cond state action ∧ ∀ next, step state action = some next → Along cond next rest

-- The states that runs reach when every step meets the condition.
def Reaches (cond : σ → ι → Prop) (start state : σ) : Prop :=
  ∃ actions, exec step start actions = some state ∧ Along step cond start actions

variable {step} {cond : σ → ι → Prop}

-- What holds at the start and is kept by every step holds after every run.
theorem invariant {Inv : σ → Prop}
    (hstep : ∀ state action next, cond state action → step state action = some next →
      Inv state → Inv next)
    {start state : σ} (h : Reaches step cond start state) (hstart : Inv start) : Inv state := by
  obtain ⟨actions, hexec, halong⟩ := h
  induction actions generalizing start with
  | nil =>
      cases hexec
      exact hstart
  | cons action rest ih =>
      obtain ⟨next, hnext, hrest⟩ := Option.bind_eq_some_iff.mp hexec
      exact ih (hstep start action next halong.1 hnext hstart) hrest (halong.2 next hnext)

theorem along_true (start : σ) (actions : List ι) : Along step (fun _ _ => True) start actions := by
  induction actions generalizing start with
  | nil => trivial
  | cons action rest ih => exact ⟨trivial, fun next _ => ih next⟩

-- The execution that also checks the condition in front of every step.
def checked (step : σ → ι → Option σ) (check : σ → ι → Bool) : σ → List ι → Option σ
  | state, [] => some state
  | state, action :: rest =>
      if check state action then (step state action).bind fun next => checked step check next rest
      else none

theorem reaches_of_checked {check : σ → ι → Bool} {start state : σ} {actions : List ι}
    (h : checked step check start actions = some state) :
    Reaches step (fun state action => check state action = true) start state := by
  induction actions generalizing start with
  | nil => exact ⟨[], h, trivial⟩
  | cons action rest ih =>
      unfold checked at h
      split at h
      · rename_i hcheck
        obtain ⟨next, hnext, hrest⟩ := Option.bind_eq_some_iff.mp h
        obtain ⟨actions, hexec, halong⟩ := ih hrest
        refine ⟨action :: actions, by rw [exec, hnext]; exact hexec, hcheck, ?_⟩
        intro other hother
        rw [hnext] at hother
        exact Option.some.inj hother ▸ halong
      · cases h

theorem Along.mono {other : σ → ι → Prop}
    (hcond : ∀ state action, other state action → cond state action)
    {start : σ} {actions : List ι} (h : Along step other start actions) :
    Along step cond start actions := by
  induction actions generalizing start with
  | nil => trivial
  | cons action rest ih => exact ⟨hcond start action h.1, fun next hnext => ih (h.2 next hnext)⟩

-- A run under a condition that ends in a state with the given property, found by executing
-- it and checking the condition on the way.
theorem exists_of_checked {check : σ → ι → Bool} {start : σ} {actions : List ι} {p : σ → Bool}
    (hcheck : ∀ state action, check state action = true → cond state action)
    (h : (checked step check start actions).map p = some true) :
    ∃ state, Reaches step cond start state ∧ p state = true := by
  obtain ⟨state, hchecked, hp⟩ := Option.map_eq_some_iff.mp h
  obtain ⟨actions, hexec, halong⟩ := reaches_of_checked hchecked
  exact ⟨state, ⟨actions, hexec, halong.mono hcheck⟩, hp⟩

-- A run that ends in a state with the given property, found by executing it.
theorem reaches_of_exec {start : σ} {actions : List ι} {p : σ → Bool}
    (h : (exec step start actions).map p = some true) :
    ∃ state, Reaches step (fun _ _ => True) start state ∧ p state = true := by
  obtain ⟨state, hexec, hp⟩ := Option.map_eq_some_iff.mp h
  exact ⟨state, ⟨actions, hexec, along_true start actions⟩, hp⟩

theorem exec_append (start : σ) (first second : List ι) :
    exec step start (first ++ second) =
      (exec step start first).bind fun state => exec step state second := by
  induction first generalizing start with
  | nil => rfl
  | cons action rest ih =>
      rw [List.cons_append, exec, exec, Option.bind_assoc]
      exact congrArg _ (funext ih)

theorem Along.append {start : σ} {first second : List ι} (h : Along step cond start first)
    (hlater : ∀ state, exec step start first = some state → Along step cond state second) :
    Along step cond start (first ++ second) := by
  induction first generalizing start with
  | nil => exact hlater start rfl
  | cons action rest ih =>
      refine ⟨h.1, fun next hnext => ih (h.2 next hnext) fun state hstate => hlater state ?_⟩
      rw [exec, hnext]
      exact hstate

theorem Reaches.refl (state : σ) : Reaches step cond state state := ⟨[], rfl, trivial⟩

theorem Reaches.single {state next : σ} {action : ι} (hcond : cond state action)
    (h : step state action = some next) : Reaches step cond state next := by
  refine ⟨[action], by rw [exec, h]; rfl, hcond, fun other _ => trivial⟩

theorem Reaches.trans {start state last : σ} (h : Reaches step cond start state)
    (hlater : Reaches step cond state last) : Reaches step cond start last := by
  obtain ⟨first, hfirst, hfirstAlong⟩ := h
  obtain ⟨second, hsecond, hsecondAlong⟩ := hlater
  refine ⟨first ++ second, by rw [exec_append, hfirst]; exact hsecond, hfirstAlong.append ?_⟩
  intro other hother
  rw [hfirst] at hother
  exact Option.some.inj hother ▸ hsecondAlong

-- A run of a component is a run of the system it is part of.
theorem Reaches.lift {τ κ : Type*} {own : τ → κ → Option τ} {ownCond : τ → κ → Prop} {put : τ → σ}
    (hlift : ∀ state action next, ownCond state action → own state action = some next →
      Reaches step cond (put state) (put next))
    {start last : τ} (h : Reaches own ownCond start last) :
    Reaches step cond (put start) (put last) := by
  obtain ⟨actions, hexec, halong⟩ := h
  induction actions generalizing start with
  | nil =>
      cases hexec
      exact .refl _
  | cons action rest ih =>
      obtain ⟨next, hnext, hrest⟩ := Option.bind_eq_some_iff.mp hexec
      exact (hlift start action next halong.1 hnext).trans (ih hrest (halong.2 next hnext))

-- A component that moves on its own moves the system it is part of.
theorem exec_lift {τ κ : Type*} {own : τ → κ → Option τ} (put : τ → σ) (lift : κ → ι)
    {actions : List κ}
    (h : ∀ state, ∀ action ∈ actions,
      step (put state) (lift action) = (own state action).map put) (start : τ) :
    exec step (put start) (actions.map lift) = (exec own start actions).map put := by
  induction actions generalizing start with
  | nil => rfl
  | cons action rest ih =>
      rw [List.map_cons, exec, h start action List.mem_cons_self, exec]
      cases own start action with
      | none => rfl
      | some next => exact ih (fun state other hother => h state other (.tail _ hother)) next

section Feed

variable {τ ο : Type*}

-- Give a machine its inputs one after another and collect what it answers.
def feed (react : σ → ι → ο × σ) : σ → List ι → List ο × σ
  | state, [] => ([], state)
  | state, input :: rest =>
      let (output, next) := react state input
      let (outputs, last) := feed react next rest
      (output :: outputs, last)

-- Machines that answer alike in related states as far as can be seen of their answers, and stay
-- related, answer alike throughout.
theorem feed_simulates_view {ω : Type*} {react : σ → ι → ο × σ} {other : τ → ι → ο × τ}
    {Related : σ → τ → Prop} (view : ο → ω) {inputs : List ι}
    (hstep : ∀ state twin, ∀ input ∈ inputs, Related state twin →
      view (react state input).1 = view (other twin input).1 ∧
        Related (react state input).2 (other twin input).2)
    {state : σ} {twin : τ} (h : Related state twin) :
    (feed react state inputs).1.map view = (feed other twin inputs).1.map view ∧
      Related (feed react state inputs).2 (feed other twin inputs).2 := by
  induction inputs generalizing state twin with
  | nil => exact ⟨rfl, h⟩
  | cons input rest ih =>
      obtain ⟨houtput, hnext⟩ := hstep state twin input List.mem_cons_self h
      obtain ⟨houtputs, hlast⟩ :=
        ih (fun state twin other hother => hstep state twin other (.tail _ hother)) hnext
      exact ⟨congrArg₂ List.cons houtput houtputs, hlast⟩

theorem feed_simulates {react : σ → ι → ο × σ} {other : τ → ι → ο × τ} {Related : σ → τ → Prop}
    {inputs : List ι}
    (hstep : ∀ state twin, ∀ input ∈ inputs, Related state twin →
      (react state input).1 = (other twin input).1 ∧
        Related (react state input).2 (other twin input).2)
    {state : σ} {twin : τ} (h : Related state twin) :
    (feed react state inputs).1 = (feed other twin inputs).1 ∧
      Related (feed react state inputs).2 (feed other twin inputs).2 := by
  have hview := feed_simulates_view id hstep h
  rwa [List.map_id, List.map_id] at hview

-- The answers that a specification allows to the inputs, taken one after another.
inductive Traces (allows : τ → ι → ο → τ → Prop) : τ → List ι → List ο → τ → Prop
  | nil (spec : τ) : Traces allows spec [] [] spec
  | cons {spec next last : τ} {input : ι} {output : ο} {inputs : List ι} {outputs : List ο}
      (first : allows spec input output next) (rest : Traces allows next inputs outputs last) :
      Traces allows spec (input :: inputs) (output :: outputs) last

-- A machine each step of which a specification allows gives answers that it allows.
theorem feed_traces {react : σ → ι → ο × σ} {allows : τ → ι → ο → τ → Prop}
    {Related : σ → τ → Prop} {inputs : List ι}
    (hstep : ∀ state spec, ∀ input ∈ inputs, Related state spec →
      ∃ next, allows spec input (react state input).1 next ∧ Related (react state input).2 next)
    {state : σ} {spec : τ} (h : Related state spec) :
    ∃ last, Traces allows spec inputs (feed react state inputs).1 last ∧
      Related (feed react state inputs).2 last := by
  induction inputs generalizing state spec with
  | nil => exact ⟨spec, .nil spec, h⟩
  | cons input rest ih =>
      obtain ⟨next, hfirst, hnext⟩ := hstep state spec input List.mem_cons_self h
      obtain ⟨last, hrest, hlast⟩ :=
        ih (fun state spec other hother => hstep state spec other (.tail _ hother)) hnext
      exact ⟨last, .cons hfirst hrest, hlast⟩

end Feed

end Run

import Mathlib.Data.List.Basic

namespace Script

variable {σ τ ε : Type*}

-- One statement of an imperative program: it moves the state or raises.
abbrev Stmt (σ ε : Type*) := σ → Except ε σ

-- Execute statements in order. The first one that raises ends the execution,
-- and the state is left as the statements before it made it.
-- A fault `(n, e)` raises `e` in front of statement `n`, or behind the last
-- statement when `n` is their number.
def run : List (Stmt σ ε) → Option (Nat × ε) → σ → σ × Option ε
  | _, some (0, error), state => (state, some error)
  | [], _, state => (state, none)
  | stmt :: rest, fault, state =>
      match stmt state with
      | .error error => (state, some error)
      | .ok next => run rest (fault.map fun (n, error) => (n - 1, error)) next

-- Execution without faults, when only the final state matters.
def exec (stmts : List (Stmt σ ε)) (state : σ) : Except ε σ :=
  stmts.foldlM (fun state stmt => stmt state) state

@[simp] theorem exec_nil (state : σ) : exec ([] : List (Stmt σ ε)) state = .ok state := rfl

@[simp] theorem exec_cons (stmt : Stmt σ ε) (rest : List (Stmt σ ε)) (state : σ) :
    exec (stmt :: rest) state = (stmt state).bind (exec rest) := rfl

theorem exec_append (first rest : List (Stmt σ ε)) (state : σ) :
    exec (first ++ rest) state = (exec first state).bind (exec rest) := by
  simp only [exec, List.foldlM_append]
  rfl

-- An execution that ends without raising met no fault, so it is the plain execution.
theorem exec_of_run {stmts : List (Stmt σ ε)} {fault : Option (Nat × ε)} {state final : σ}
    (h : run stmts fault state = (final, none)) : exec stmts state = .ok final := by
  induction stmts generalizing fault state with
  | nil =>
      match fault with
      | none => simpa [run] using h
      | some (0, _) => simp [run] at h
      | some (_ + 1, _) => simpa [run] using h
  | cons stmt rest ih =>
      match fault with
      | some (0, _) => simp [run] at h
      | none | some (_ + 1, _) =>
          rw [run] at h
          · cases hs : stmt state with
            | error error => simp [hs] at h
            | ok next =>
                rw [hs] at h
                rw [exec_cons, hs]
                exact ih h
          · simp

theorem run_of_exec {stmts : List (Stmt σ ε)} {state final : σ}
    (h : exec stmts state = .ok final) : run stmts none state = (final, none) := by
  induction stmts generalizing state with
  | nil => simpa [run] using h
  | cons stmt rest ih =>
      rw [exec_cons] at h
      cases hs : stmt state with
      | error error => simp [hs, Except.bind] at h
      | ok next =>
          rw [hs] at h
          simpa [run, hs] using ih h

-- A fault behind the last statement but one is met, if the statements do not raise before.
theorem run_raises {stmts : List (Stmt σ ε)} {n : Nat} (h : n ≤ stmts.length) (error : ε)
    (state : σ) : ∃ last raised, run stmts (some (n, error)) state = (last, some raised) := by
  induction stmts generalizing n state with
  | nil =>
      have hzero : n = 0 := by simpa using h
      subst hzero
      exact ⟨state, error, rfl⟩
  | cons stmt rest ih =>
      cases n with
      | zero => exact ⟨state, error, rfl⟩
      | succ n =>
          cases hs : stmt state with
          | error first => exact ⟨state, first, by simp [run, hs]⟩
          | ok next =>
              obtain ⟨last, raised, hrun⟩ := ih (Nat.le_of_succ_le_succ h) next
              exact ⟨last, raised, by simpa [run, hs] using hrun⟩

-- Later faults are never met.
theorem run_late {stmts : List (Stmt σ ε)} {n : Nat} (h : stmts.length < n) (error : ε)
    (state : σ) : run stmts (some (n, error)) state = run stmts none state := by
  induction stmts generalizing n state with
  | nil =>
      cases n with
      | zero => simp at h
      | succ n => rfl
  | cons stmt rest ih =>
      cases n with
      | zero => simp at h
      | succ n =>
          cases hs : stmt state with
          | error first => simp [run, hs]
          | ok next =>
              have hrest := ih (Nat.lt_of_succ_lt_succ h) next
              simpa [run, hs] using hrest

-- How many statements run before one raises, if one does, when the statements can run as far
-- as `reach` without a fault.
def stop (length reach : Nat) : Option (Nat × ε) → Option Nat
  | some (n, _) => if n ≤ reach then some n else if reach < length then some reach else none
  | none => if reach < length then some reach else none

-- The fault as the statements behind the first one meet it.
def later (fault : Option (Nat × ε)) : Option (Nat × ε) :=
  fault.map fun (n, error) => (n - 1, error)

section Stop

variable {stmt : Stmt σ ε} {rest : List (Stmt σ ε)} {fault : Option (Nat × ε)} {state next : σ}

theorem run_cons_ok (hfault : ∀ error, fault ≠ some (0, error)) (hs : stmt state = .ok next) :
    run (stmt :: rest) fault state = run rest (later fault) next := by
  match fault with
  | some (0, error) => exact absurd rfl (hfault error)
  | none | some (_ + 1, _) => simp [run, hs, later]

theorem run_cons_error {error : ε} (hs : stmt state = .error error) :
    ∃ raised, run (stmt :: rest) fault state = (state, some raised) := by
  match fault with
  | some (0, first) => exact ⟨first, rfl⟩
  | none | some (_ + 1, _) => exact ⟨error, by simp [run, hs]⟩

theorem stop_succ (hfault : ∀ error, fault ≠ some (0, error)) (length reach : Nat) :
    stop (length + 1) (reach + 1) fault = (stop length reach (later fault)).map (· + 1) := by
  match fault with
  | some (0, error) => exact absurd rfl (hfault error)
  | none =>
      simp only [stop, later, Option.map_none, Nat.add_lt_add_iff_right]
      split <;> rfl
  | some (n + 1, _) =>
      simp only [stop, later, Option.map_some, Nat.add_lt_add_iff_right, Nat.add_le_add_iff_right,
        Nat.add_sub_cancel]
      split_ifs <;> rfl

theorem stop_zero (hfault : ∀ error, fault ≠ some (0, error)) (length : Nat) :
    stop (length + 1) 0 fault = some 0 := by
  match fault with
  | some (0, error) => exact absurd rfl (hfault error)
  | none | some (_ + 1, _) => simp [stop]

end Stop

-- An execution ends where the fault or the first failing statement stops it.
theorem run_eq_stop {stmts : List (Stmt σ ε)} {reach : Nat} {state last : σ}
    (hreach : exec (stmts.take reach) state = .ok last)
    (hlast : stmts.length = reach ∨
      ∃ stmt error, stmts[reach]? = some stmt ∧ stmt last = .error error)
    (fault : Option (Nat × ε)) :
    match stop stmts.length reach fault with
    | none => run stmts fault state = (last, none)
    | some count => count ≤ stmts.length ∧ ∃ middle error,
        run stmts fault state = (middle, some error) ∧
          exec (stmts.take count) state = .ok middle := by
  induction stmts generalizing reach fault state with
  | nil =>
      have hzero : reach = 0 := by
        rcases hlast with hlength | ⟨stmt, error, hget, -⟩
        · exact hlength.symm
        · simp at hget
      subst hzero
      cases hreach
      match fault with
      | none => simp [stop, run]
      | some (0, error) => exact ⟨Nat.le_refl _, _, error, rfl, rfl⟩
      | some (_ + 1, _) => simp [stop, run]
  | cons stmt rest ih =>
      by_cases hfault : ∃ error, fault = some (0, error)
      · obtain ⟨error, rfl⟩ := hfault
        exact ⟨Nat.zero_le _, state, error, rfl, rfl⟩
      have hlater : ∀ error, fault ≠ some (0, error) := fun error he => hfault ⟨error, he⟩
      cases reach with
      | zero =>
          -- The first statement raises.
          cases hreach
          obtain ⟨failing, error, hget, herror⟩ := hlast.resolve_left (by simp)
          cases hget
          obtain ⟨raised, hrun⟩ := @run_cons_error _ _ _ rest fault _ _ herror
          rw [List.length_cons, stop_zero hlater]
          exact ⟨Nat.zero_le _, _, raised, hrun, rfl⟩
      | succ reach =>
          rw [List.take_succ_cons, exec_cons] at hreach
          cases hs : stmt state with
          | error error => simp [hs, Except.bind] at hreach
          | ok next =>
              rw [hs] at hreach
              have hrest := ih hreach (by simpa using hlast) (later fault)
              rw [List.length_cons, stop_succ hlater]
              rw [run_cons_ok hlater hs]
              cases hstop : stop rest.length reach (later fault) with
              | none =>
                  rw [hstop] at hrest
                  exact hrest
              | some count =>
                  rw [hstop] at hrest
                  obtain ⟨hle, middle, error, hrun, hexec⟩ := hrest
                  refine ⟨Nat.succ_le_succ hle, middle, error, hrun, ?_⟩
                  rw [List.take_succ_cons, exec_cons, hs]
                  exact hexec

-- Wherever an execution stops, some first statements have run.
theorem exec_take_of_run (stmts : List (Stmt σ ε)) (fault : Option (Nat × ε)) (state : σ) :
    ∃ count, exec (stmts.take count) state = .ok (run stmts fault state).1 := by
  induction stmts generalizing fault state with
  | nil => match fault with | none | some (0, _) | some (_ + 1, _) => exact ⟨0, rfl⟩
  | cons stmt rest ih =>
      by_cases hfault : ∃ error, fault = some (0, error)
      · obtain ⟨error, rfl⟩ := hfault
        exact ⟨0, rfl⟩
      cases hs : stmt state with
      | error error =>
          obtain ⟨raised, hrun⟩ := @run_cons_error _ _ _ rest fault _ _ hs
          exact ⟨0, by rw [hrun]; rfl⟩
      | ok next =>
          obtain ⟨count, hexec⟩ := ih (later fault) next
          refine ⟨count + 1, ?_⟩
          rw [List.take_succ_cons, exec_cons, hs,
            run_cons_ok (fun error he => hfault ⟨error, he⟩) hs]
          exact hexec

-- A property that every statement keeps holds wherever the execution stops.
theorem run_invariant {Inv : σ → Prop} {stmts : List (Stmt σ ε)}
    (hstep : ∀ stmt ∈ stmts, ∀ before after, stmt before = .ok after → Inv before → Inv after)
    (fault : Option (Nat × ε)) {state : σ} (h : Inv state) : Inv (run stmts fault state).1 := by
  induction stmts generalizing fault state with
  | nil =>
      match fault with
      | none => exact h
      | some (0, _) => exact h
      | some (_ + 1, _) => exact h
  | cons stmt rest ih =>
      match fault with
      | some (0, _) => exact h
      | none | some (_ + 1, _) =>
          rw [run]
          · cases hs : stmt state with
            | error error => exact h
            | ok next =>
                exact ih (fun other ho => hstep other (.tail _ ho)) _
                  (hstep stmt (.head _) state next hs h)
          · simp

theorem exec_invariant {Inv : σ → Prop} {stmts : List (Stmt σ ε)}
    (hstep : ∀ stmt ∈ stmts, ∀ before after, stmt before = .ok after → Inv before → Inv after)
    {state final : σ} (hexec : exec stmts state = .ok final) (h : Inv state) : Inv final := by
  have hrun := run_invariant hstep none h
  rwa [run_of_exec hexec] at hrun

-- The first statements of two scripts that run one after the other.
theorem exec_take_append {first rest : List (Stmt σ ε)} {count : Nat} {state middle : σ}
    (hfirst : exec first state = .ok middle) (hcount : first.length ≤ count) :
    exec ((first ++ rest).take count) state = exec (rest.take (count - first.length)) middle := by
  rw [List.take_append, List.take_of_length_le hcount, exec_append, hfirst]
  rfl

theorem exec_take_append_left {first rest : List (Stmt σ ε)} {count : Nat} (state : σ)
    (hcount : count ≤ first.length) :
    exec ((first ++ rest).take count) state = exec (first.take count) state := by
  rw [List.take_append_of_le_length hcount]

-- A statement on one component of a larger state.
def on (get : τ → σ) (put : σ → τ → τ) (stmt : Stmt σ ε) : Stmt τ ε := fun state =>
  (stmt (get state)).map fun part => put part state

theorem exec_on {get : τ → σ} {put : σ → τ → τ} (hget : ∀ part state, get (put part state) = part)
    (hput : ∀ a b state, put a (put b state) = put a state)
    (hself : ∀ state, put (get state) state = state)
    (stmts : List (Stmt σ ε)) (state : τ) :
    exec (stmts.map (on get put)) state =
      (exec stmts (get state)).map fun part => put part state := by
  induction stmts generalizing state with
  | nil => simp [Except.map, hself]
  | cons stmt rest ih =>
      simp only [List.map_cons, exec_cons, on]
      cases hs : stmt (get state) with
      | error error => rfl
      | ok part =>
          simp only [Except.map, Except.bind]
          rw [ih, hget]
          cases exec rest part with
          | error error => rfl
          | ok final => simp [Except.map, hput]

end Script

import PySearch.Lib.Script
import Mathlib.Data.List.Forall2

namespace Transaction

open Script (Stmt)

variable {σ ε : Type*}

-- A connection to a file: what the file holds, and what the open transaction has made of it.
structure Connection (σ : Type*) where
  file : σ
  pending : Option σ

namespace Connection

def ofFile (file : σ) : Connection σ := ⟨file, none⟩

-- What the statements of this connection see.
def view (connection : Connection σ) : σ := connection.pending.getD connection.file

-- A commit reaches the file as a whole or not at all.
def commit (connection : Connection σ) : Connection σ := ofFile connection.view

def rollback (connection : Connection σ) : Connection σ := ofFile connection.file

end Connection

-- A statement that reads, and one that changes rows. The first change opens a transaction. A
-- change that raises changes nothing.
def select (check : σ → Except ε Unit) : Stmt (Connection σ) ε := fun connection =>
  (check connection.view).map fun _ => connection

def modify (change : σ → Except ε σ) : Stmt (Connection σ) ε := fun connection =>
  (change connection.view).map fun next => { connection with pending := some next }

-- A change outside of any transaction goes to the file at once.
def direct (change : σ → Except ε σ) : Stmt (Connection σ) ε := fun connection =>
  (change connection.view).map .ofFile

-- `with connection:` commits behind the block, and rolls back when a statement or the commit
-- raises. A fault behind the last statement is one of the commit.
def withConnection (stmts : List (Stmt (Connection σ) ε)) (fault : Option (Nat × ε))
    (connection : Connection σ) : Connection σ × Option ε :=
  match Script.run stmts fault connection with
  | (connection, none) => (connection.commit, none)
  | (connection, some error) => (connection.rollback, some error)

-- What the file holds when the process dies with the given number of statements behind it. The
-- commit is the statement behind the block.
def abandoned (stmts : List (Stmt (Connection σ) ε)) (done : Nat) (connection : Connection σ) : σ :=
  if stmts.length < done then (withConnection stmts none connection).1.file
  else (Script.run (stmts.take done) none connection).1.file

-- A statement of a transaction: it does to what is seen what the given change does, and leaves
-- the file alone.
def Acts (stmt : Stmt (Connection σ) ε) (change : Stmt σ ε) : Prop :=
  ∀ connection, match stmt connection with
    | .ok next => change connection.view = .ok next.view ∧ next.file = connection.file
    | .error error => change connection.view = .error error

theorem acts_select (check : σ → Except ε Unit) :
    Acts (select check) fun state => (check state).map fun _ => state := by
  intro connection
  unfold select
  cases hcheck : check connection.view with
  | error error => simp [Except.map, hcheck]
  | ok _ => simp [Except.map, hcheck]

theorem acts_modify (change : Stmt σ ε) : Acts (modify change) change := by
  intro connection
  unfold modify
  cases hchange : change connection.view with
  | error error => rfl
  | ok next => exact ⟨rfl, rfl⟩

theorem acts_map (changes : List (Stmt σ ε)) :
    List.Forall₂ Acts (changes.map modify) changes := by
  induction changes with
  | nil => exact .nil
  | cons change rest ih => exact .cons (acts_modify change) ih

section Acts

variable {stmts : List (Stmt (Connection σ) ε)} {changes : List (Stmt σ ε)}

-- Until the commit nothing reaches the file.
theorem run_acts (h : List.Forall₂ Acts stmts changes) (fault : Option (Nat × ε))
    (connection : Connection σ) :
    (Script.run stmts fault connection).1.file = connection.file ∧
      (Script.run stmts fault connection).1.view =
        (Script.run changes fault connection.view).1 ∧
      (Script.run stmts fault connection).2 = (Script.run changes fault connection.view).2 := by
  induction h generalizing fault connection with
  | nil => match fault with | none | some (0, _) | some (_ + 1, _) => exact ⟨rfl, rfl, rfl⟩
  | @cons stmt change stmts changes hacts _ ih =>
      have hone := hacts connection
      match fault with
      | some (0, _) => exact ⟨rfl, rfl, rfl⟩
      | none | some (_ + 1, _) =>
          cases hs : stmt connection with
          | error error =>
              rw [hs] at hone
              simp [Script.run, hs, hone]
          | ok next =>
              rw [hs] at hone
              obtain ⟨hchange, hfile⟩ := hone
              simp only [Script.run, hs, hchange]
              rw [← hfile]
              exact ih _ next

-- A transaction is all or nothing.
theorem withConnection_eq (h : List.Forall₂ Acts stmts changes) (fault : Option (Nat × ε))
    (file : σ) : withConnection stmts fault (.ofFile file) =
      match Script.run changes fault file with
      | (final, none) => (.ofFile final, none)
      | (_, some error) => (.ofFile file, some error) := by
  obtain ⟨hfile, hview, herror⟩ := run_acts h fault (.ofFile file)
  have hseen : (Connection.ofFile file).view = file := rfl
  rw [hseen] at hview herror
  unfold withConnection
  rcases hrun : Script.run stmts fault (.ofFile file) with ⟨last, raised⟩
  rcases hplain : Script.run changes fault file with ⟨final, other⟩
  rw [hrun] at hfile hview herror
  rw [hplain] at hview herror
  dsimp only at hfile hview herror
  subst herror
  cases raised with
  | none =>
      dsimp only
      rw [Connection.commit, hview]
  | some error =>
      dsimp only
      rw [Connection.rollback, hfile]
      rfl

-- A process that dies leaves what there was, or what the whole block makes of it.
theorem abandoned_eq (h : List.Forall₂ Acts stmts changes) (done : Nat) (file : σ) :
    abandoned stmts done (.ofFile file) =
      if stmts.length < done then (withConnection stmts none (.ofFile file)).1.file else file := by
  unfold abandoned
  split
  · rfl
  · exact (run_acts (List.forall₂_take done h) none (.ofFile file)).1

end Acts

end Transaction

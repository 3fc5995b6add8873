import Mathlib.Data.List.Basic

namespace PySearch

-- The serving state of one physical copy. Only `ready` serves traffic.
inductive NodeState
  | starting
  | recovering
  | ready
  | degraded
  | outOfSync
  deriving DecidableEq, Repr

-- What the validations of the index and of the engine can find wrong, with the values that
-- their messages print.
inductive IndexViolation
  | coverage
  | totalLength (recorded summed : Int)
  | negativeLength
  | emptyPostings (term : String)
  | unknownDocument (term documentId : String)
  | termFrequency (term documentId : String) (frequency : Int)
  | missingTerm (documentId term : String)
  | missingPosting (term documentId : String)
  | lengthMismatch (documentId : String) (recorded summed : Int)
  | resynchronized (expected found : Int)
  | cacheAndIndex
  | vectorsAndCache
  | storedGeneration (stored believed : Int)
  | storedCount (stored cached : Nat)
  | missingFromCache (documentId : String)
  | cachedText (documentId : String)
  deriving DecidableEq, Repr

-- What `ExactVectorIndex` can refuse.
inductive VectorViolation
  | positionCount (ids positions : Nat)
  | misplaced (documentId : String) (row : Nat)
  | width (found expected : Nat)
  | nonFinite
  | notUnit (documentId : String)
  deriving DecidableEq, Repr

-- The exceptions of the program. An exception whose text quotes values carries
-- the values instead of the text. `unexpected` stands for any other exception
-- that a library call may raise.
inductive PyError
  | keyError (key : String)
  | valueError (message : String)
  | invalidDocument (message : String)
  | documentNotFound (documentId : String)
  | engineNotReady (state : NodeState) (detail : String)
  | indexInvariant (violation : IndexViolation)
  | storage (message : String)
  | embedding (message : String)
  | vectorIndex (violation : VectorViolation)
  | semanticDisabled (message : String)
  | shardUnavailable (message : String)
  | shardTimeout (message : String)
  | shardCopiesExhausted (shardId : Nat)
  | distributedSearch (action : String) (shardIds : List Nat)
  | replication (generation : Int)
  | unexpected
  deriving DecidableEq, Repr

-- The subclasses of `ClusterError`.
def PyError.isClusterError : PyError → Bool
  | shardUnavailable _ | shardTimeout _ | shardCopiesExhausted _ | distributedSearch _ _
  | replication _ => true
  | _ => false

-- A block that returns has run each of its statements.
theorem bind_ok {ε β γ : Type} {x : Except ε β} {f : β → Except ε γ} {result : γ}
    (h : x >>= f = .ok result) : ∃ value, x = .ok value ∧ f value = .ok result := by
  cases x with
  | error error => simp [Bind.bind, Except.bind] at h
  | ok value => exact ⟨value, rfl, h⟩

-- A loop of checks returns if and only if each of them does.
theorem forM_ok {ι : Type} (items : List ι) (check : ι → Except PyError Unit)
    (h : ∀ item ∈ items, check item = .ok ()) : items.forM check = .ok () := by
  induction items with
  | nil => rfl
  | cons item rest ih =>
      have hrest := ih fun other ho => h other (.tail _ ho)
      simp only [List.forM_eq_forM] at hrest ⊢
      rw [List.forM_cons, h item (.head _)]
      exact hrest

theorem of_forM_ok {ι : Type} {items : List ι} {check : ι → Except PyError Unit}
    (h : items.forM check = .ok ()) : ∀ item ∈ items, check item = .ok () := by
  induction items with
  | nil => exact fun _ hm => nomatch hm
  | cons item rest ih =>
      simp only [List.forM_eq_forM, List.forM_cons] at h
      obtain ⟨⟨⟩, hitem, hrest⟩ := bind_ok h
      intro other hm
      rcases List.mem_cons.mp hm with rfl | hother
      · exact hitem
      · exact ih (by simpa only [List.forM_eq_forM] using hrest) other hother

end PySearch

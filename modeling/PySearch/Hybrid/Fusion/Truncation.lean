import PySearch.Hybrid.Fusion.Exact
import Mathlib.Tactic.Linarith

namespace PySearch

open KeySort (Precedes)

namespace Fusion

section Arithmetic

variable {rrfK : Int} {depth : Nat} {rank : Option Nat}

end Arithmetic

section Rankings

variable {rrfK : Int} {depth : Nat} {lexical semantic : SearchResults ℚ} {id : String}
  (hlexical : (lexical.results.map SearchResult.documentId).Nodup)
  (hsemantic : (semantic.results.map SearchResult.documentId).Nodup)

include hlexical hsemantic

end Rankings

section Rational

attribute [local instance] rationalArith

variable {lexical semantic : SearchResults ℚ} {limit : Int} {config : FusionConfig}
  {fused : HybridResults ℚ}
  (hlexical : (lexical.results.map SearchResult.documentId).Nodup)
  (hsemantic : (semantic.results.map SearchResult.documentId).Nodup)

include hlexical hsemantic

omit hlexical hsemantic

end Rational

section Example

attribute [local instance] rationalArith

end Example

end Fusion

end PySearch

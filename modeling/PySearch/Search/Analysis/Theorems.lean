import PySearch.Lib.MaximalRuns
import PySearch.Search.Analysis

namespace PySearch.Analysis

open MaximalRuns

variable {isalnum : Char → Bool}

-- The text is made of the given tokens: they are non-empty and alphanumeric, nothing around
-- them is, and something lies between any two of them.
def Decomposes (isalnum : Char → Bool) (text : String) (tokens : List String) : Prop :=
  ∃ first pieces, Separated isalnum first pieces ∧ weave first pieces = text.toList ∧
    pieces.map Prod.fst = tokens.map String.toList

-- A separator has at least one character, none of which is alphanumeric.
def Separator (isalnum : Char → Bool) (text : String) : Prop :=
  text ≠ "" ∧ Free isalnum text.toList

-- Tokens that are complete stay in front.
theorem scan_tokens (text current : List Char) (tokens : List String) :
    scan isalnum text current tokens = tokens ++ scan isalnum text current [] := by
  induction text generalizing current tokens with
  | nil =>
      unfold scan
      split <;> simp
  | cons character rest ih =>
      unfold scan
      split
      · exact ih _ _
      · split
        · exact ih _ _
        · rw [ih, ih [] ([] ++ _)]
          simp

-- Inside a run the characters pile up.
theorem scan_run {run : List Char} (h : ∀ character ∈ run, isalnum character = true)
    (rest current : List Char) (tokens : List String) :
    scan isalnum (run ++ rest) current tokens = scan isalnum rest (current ++ run) tokens := by
  induction run generalizing current with
  | nil => simp
  | cons character more ih =>
      rw [List.cons_append, scan, if_pos (h character (.head _)),
        ih (fun other ho => h other (.tail _ ho)), List.append_assoc]
      rfl

-- Between runs nothing happens.
theorem scan_free {gap : List Char} (h : Free isalnum gap) (rest : List Char)
    (tokens : List String) :
    scan isalnum (gap ++ rest) [] tokens = scan isalnum rest [] tokens := by
  induction gap with
  | nil => rfl
  | cons character more ih =>
      have hcharacter : ¬ isalnum character = true := by simp [h character (.head _)]
      rw [List.cons_append, scan, if_neg hcharacter, if_pos rfl]
      exact ih fun other ho => h other (.tail _ ho)

-- The first character of a gap completes the pending token.
theorem scan_gap {gap current : List Char} (h : Free isalnum gap) (hgap : gap ≠ [])
    (rest : List Char) (tokens : List String) :
    scan isalnum (gap ++ rest) current tokens =
      scan isalnum rest [] (scan isalnum [] current tokens) := by
  obtain ⟨character, more, rfl⟩ := List.exists_cons_of_ne_nil hgap
  have hcharacter : ¬ isalnum character = true := by simp [h character (.head _)]
  have hmore : Free isalnum more := fun other ho => h other (.tail _ ho)
  rw [List.cons_append, scan, scan, if_neg hcharacter]
  by_cases hcurrent : current = []
  · rw [if_pos hcurrent, if_pos hcurrent, hcurrent, scan_free hmore]
  · rw [if_neg hcurrent, if_neg hcurrent, scan_free hmore]

theorem scan_pieces {first : List Char} {pieces : List (List Char × List Char)}
    (h : Separated isalnum first pieces) (tokens : List String) :
    scan isalnum (pieces.flatMap fun piece => piece.1 ++ piece.2) [] tokens =
      tokens ++ pieces.map fun piece => String.ofList piece.1 := by
  induction pieces generalizing first tokens with
  | nil => simp [scan]
  | cons piece more ih =>
      obtain ⟨run, gap⟩ := piece
      obtain ⟨hmore, hinner⟩ := h.tail
      obtain ⟨hrun, hsolid⟩ := h.runs (run, gap) (.head _)
      rw [List.flatMap_cons, List.append_assoc, scan_run hsolid, List.nil_append]
      have hflush : scan isalnum [] run tokens = tokens ++ [String.ofList run] := if_neg hrun
      by_cases hgap : gap = []
      · have hlast : more = [] := by
          by_contra hne
          exact hinner hne hgap
        rw [hgap, hlast, List.nil_append, List.flatMap_nil, hflush]
        rfl
      · rw [scan_gap hmore.first hgap, hflush, ih hmore, List.append_assoc]
        rfl

theorem scan_weave {first : List Char} {pieces : List (List Char × List Char)}
    (h : Separated isalnum first pieces) :
    scan isalnum (weave first pieces) [] [] = pieces.map fun piece => String.ofList piece.1 := by
  rw [weave, scan_free h.first, scan_pieces h]
  rfl

theorem tokenize_of_decomposes {text : String} {tokens : List String}
    (h : Decomposes isalnum text tokens) : tokenize isalnum text = tokens := by
  obtain ⟨first, pieces, hseparated, hweave, htokens⟩ := h
  have hmap := congrArg (List.map String.ofList) htokens
  simp only [List.map_map, Function.comp_def, String.ofList_toList, List.map_id'] at hmap
  rw [tokenize, ← hweave, scan_weave hseparated, hmap]

theorem decomposes_tokenize (isalnum : Char → Bool) (text : String) :
    Decomposes isalnum text (tokenize isalnum text) := by
  obtain ⟨first, pieces, hseparated, hweave⟩ := exists_separated isalnum text.toList
  refine ⟨first, pieces, hseparated, hweave, ?_⟩
  rw [tokenize, ← hweave, scan_weave hseparated]
  simp [Function.comp_def]

theorem tokenize_eq_iff (text : String) (tokens : List String) :
    tokenize isalnum text = tokens ↔ Decomposes isalnum text tokens := by
  constructor
  · rintro rfl
    exact decomposes_tokenize isalnum text
  · exact tokenize_of_decomposes

theorem scan_append (text rest current : List Char) (tokens : List String)
    {gap : List Char} (hfree : Free isalnum gap) (hgap : gap ≠ []) :
    scan isalnum (text ++ (gap ++ rest)) current tokens =
      scan isalnum rest [] (scan isalnum text current tokens) := by
  induction text generalizing current tokens with
  | nil => exact scan_gap hfree hgap rest tokens
  | cons character more ih =>
      rw [List.cons_append, scan, scan]
      split
      · exact ih _ _
      · split
        · exact ih _ _
        · exact ih _ _

-- A separator keeps what stands before it and what stands behind it apart.
theorem tokenize_append {separator : String} (h : Separator isalnum separator)
    (before behind : String) :
    tokenize isalnum (before ++ separator ++ behind) =
      tokenize isalnum before ++ tokenize isalnum behind := by
  have hne : separator.toList ≠ [] := by simpa using h.1
  simp only [tokenize, String.toList_append, List.append_assoc]
  rw [scan_append _ _ _ _ h.2 hne, scan_tokens]

theorem tokenize_token {text token : String} (h : token ∈ tokenize isalnum text) :
    tokenize isalnum token = [token] := by
  obtain ⟨first, pieces, hseparated, -, htokens⟩ := decomposes_tokenize isalnum text
  have hmem : token.toList ∈ pieces.map Prod.fst := by
    rw [htokens]
    exact List.mem_map_of_mem h
  obtain ⟨piece, hpiece, hrun⟩ := List.mem_map.mp hmem
  apply tokenize_of_decomposes
  refine ⟨[], [(token.toList, [])], .cons free_nil ?_ (separated_nil free_nil) (by simp), ?_, rfl⟩
  · rw [← hrun]
    exact hseparated.runs piece hpiece
  · simp [weave]

theorem tokenize_intercalate {separator : String} (h : Separator isalnum separator)
    {tokens : List String} (htokens : ∀ token ∈ tokens, tokenize isalnum token = [token]) :
    tokenize isalnum (separator.intercalate tokens) = tokens := by
  induction tokens with
  | nil => rfl
  | cons token rest ih =>
      have htoken := htokens token (.head _)
      by_cases hrest : rest = []
      · rw [hrest]
        simpa using htoken
      · obtain ⟨next, more, rfl⟩ := List.exists_cons_of_ne_nil hrest
        rw [String.intercalate_cons_cons, tokenize_append h, htoken,
          ih fun other ho => htokens other (.tail _ ho)]
        rfl

-- Tokenizing yields exactly the maximal alphanumeric runs. So it distributes over
-- separators, and tokens that are joined by one are found again.
theorem tokenize_maximal_runs (isalnum : Char → Bool) :
    (∀ text tokens, tokenize isalnum text = tokens ↔ Decomposes isalnum text tokens) ∧
    ∀ separator, Separator isalnum separator →
      (∀ before behind, tokenize isalnum (before ++ separator ++ behind) =
        tokenize isalnum before ++ tokenize isalnum behind) ∧
      ∀ text, tokenize isalnum (separator.intercalate (tokenize isalnum text)) =
        tokenize isalnum text :=
  ⟨tokenize_eq_iff, fun _ hseparator => ⟨tokenize_append hseparator,
    fun _ => tokenize_intercalate hseparator fun _ => tokenize_token⟩⟩

theorem redFox_tokens_joined :
    Separator Char.isAlphanum ", " ∧
    tokenize Char.isAlphanum (", ".intercalate (tokenize Char.isAlphanum "--red fox!")) =
      ["red", "fox"] := by
  have hseparator : Separator Char.isAlphanum ", " := by
    refine ⟨by decide, fun character hm => ?_⟩
    have hcases : character = ',' ∨ character = ' ' := by simpa using hm
    rcases hcases with rfl | rfl <;> decide
  refine ⟨hseparator, ?_⟩
  rw [((tokenize_maximal_runs Char.isAlphanum).2 ", " hseparator).2]
  decide +kernel

end PySearch.Analysis

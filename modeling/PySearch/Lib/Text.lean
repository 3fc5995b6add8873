import Mathlib.Data.List.DropRight

-- Splitting and stripping of text, character by character.
namespace Text

-- The pieces between the separators. There is always at least one.
def split (separator : Char) (text : String) : List String :=
  (text.toList.splitOn separator).map String.ofList

def rstrip (drop : Char → Bool) (text : String) : String := .ofList (text.toList.rdropWhile drop)

def strip (drop : Char → Bool) (text : String) : String :=
  .ofList ((text.toList.dropWhile drop).rdropWhile drop)

-- The second text is the first one followed by one or more of the given character.
def Extends (c : Char) (text other : String) : Prop :=
  ∃ count, other.toList = text.toList ++ List.replicate (count + 1) c

section Trailing

variable {c : Char}

theorem extends_iff {text other : String} : Extends c text other ↔
    text.toList.length < other.toList.length ∧ other.toList =
      text.toList ++ List.replicate (other.toList.length - text.toList.length) c := by
  constructor
  · rintro ⟨count, h⟩
    have hlength : other.toList.length = text.toList.length + (count + 1) := by simp [h]
    exact ⟨by omega, by rwa [hlength, Nat.add_sub_cancel_left]⟩
  · rintro ⟨hlt, h⟩
    refine ⟨other.toList.length - text.toList.length - 1, ?_⟩
    rwa [Nat.sub_add_cancel (by omega)]

instance (text other : String) : Decidable (Extends c text other) := decidable_of_iff' _ extends_iff

theorem rdropWhile_append_replicate (items : List Char) (count : Nat) :
    (items ++ List.replicate count c).rdropWhile (· = c) = items.rdropWhile (· = c) := by
  induction count with
  | zero => simp
  | succ count ih =>
      rw [List.replicate_succ', ← List.append_assoc, List.rdropWhile_concat_pos _ _ _ (by simp), ih]

-- What is stripped is a number of copies of the character.
theorem exists_stripped (items : List Char) :
    ∃ count, items = items.rdropWhile (· = c) ++ List.replicate count c := by
  refine ⟨(items.rtakeWhile (· = c)).length, ?_⟩
  have hcopies : items.rtakeWhile (· = c) =
      List.replicate (items.rtakeWhile (· = c)).length c :=
    List.eq_replicate_iff.mpr ⟨rfl, fun x hx => by simpa using List.mem_rtakeWhile_imp hx⟩
  rw [← hcopies, List.rdropWhile_append_rtakeWhile]

-- Two texts have one stripped form if one of them continues the other with the character.
theorem rstrip_eq_iff (text other : String) :
    rstrip (· = c) text = rstrip (· = c) other ↔
      text = other ∨ Extends c text other ∨ Extends c other text := by
  constructor
  · intro h
    have hbase : text.toList.rdropWhile (· = c) = other.toList.rdropWhile (· = c) :=
      String.ofList_injective h
    obtain ⟨m, hm⟩ := @exists_stripped c text.toList
    obtain ⟨n, hn⟩ := @exists_stripped c other.toList
    rw [hbase] at hm
    generalize other.toList.rdropWhile (· = c) = base at hm hn
    rcases Nat.lt_trichotomy m n with hlt | heq | hlt
    · refine .inr (.inl ⟨n - m - 1, ?_⟩)
      rw [hm, hn, List.append_assoc, List.replicate_append_replicate]
      congr 2
      omega
    · left
      rw [heq] at hm
      exact String.toList_injective (hm.trans hn.symm)
    · refine .inr (.inr ⟨m - n - 1, ?_⟩)
      rw [hm, hn, List.append_assoc, List.replicate_append_replicate]
      congr 2
      omega
  · have hextends : ∀ {first second : String}, Extends c first second →
        rstrip (· = c) first = rstrip (· = c) second := by
      rintro first second ⟨count, h⟩
      rw [rstrip, rstrip, h, rdropWhile_append_replicate]
    rintro (rfl | h | h)
    · rfl
    · exact hextends h
    · exact (hextends h).symm

end Trailing

section Pieces

variable {separator : Char} {drop : Char → Bool}

-- Pieces without the separator are found again in what joins them.
theorem split_intercalate {pieces : List String} (hne : pieces ≠ [])
    (h : ∀ piece ∈ pieces, separator ∉ piece.toList) :
    split separator ((String.singleton separator).intercalate pieces) = pieces := by
  have hpieces : ∀ piece ∈ pieces.map String.toList, separator ∉ piece := by
    intro piece hpiece
    obtain ⟨text, htext, rfl⟩ := List.mem_map.mp hpiece
    exact h text htext
  rw [split, String.toList_intercalate, String.toList_singleton,
    List.splitOn_intercalate separator hpieces (by simpa using hne), List.map_map]
  simp

theorem strip_eq_self {text : String} (h : ∀ c ∈ text.toList, drop c = false) :
    strip drop text = text := by
  have hfront : text.toList.dropWhile drop = text.toList := by
    rw [List.dropWhile_eq_self_iff]
    intro hpos
    simp [h _ (List.getElem_mem hpos)]
  have hback : text.toList.rdropWhile drop = text.toList := by
    rw [List.rdropWhile_eq_self_iff]
    intro hne
    simp [h _ (List.getLast_mem hne)]
  rw [strip, hfront, hback, String.ofList_toList]

-- Stripping leaves something where there is a character to keep.
theorem strip_ne_empty {text : String} {c : Char} (hc : c ∈ text.toList) (h : drop c = false) :
    strip drop text ≠ "" := by
  intro hempty
  have hnil : (text.toList.dropWhile drop).rdropWhile drop = [] := by
    simpa [strip] using congrArg String.toList hempty
  have hdropped := List.rdropWhile_eq_nil_iff.mp hnil
  have hall : ∀ x ∈ text.toList, drop x = true := by
    intro x hx
    rw [← List.takeWhile_append_dropWhile (p := drop) (l := text.toList)] at hx
    rcases List.mem_append.mp hx with htaken | hrest
    · exact List.mem_takeWhile_imp htaken
    · exact hdropped x hrest
  rw [hall c hc] at h
  cases h

end Pieces

end Text
